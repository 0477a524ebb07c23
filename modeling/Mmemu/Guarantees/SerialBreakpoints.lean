import Mmemu.Library.Runs
import Mmemu.Source.SerialMonitor

/-!
# Serial monitor: breakpoint and watchpoint commands

`B` and `W` set a breakpoint or a watchpoint at an address and take all of one kind away without
one. In the list they share, taking away goes by another measure: `B` takes every entry, `W` the
first one at `0xFFFFFFFF`, and that address itself cannot be set. A run of the monitor does what
its lines ask for exactly if none of them meets this, nor divides by zero.
-/
namespace Mmemu.Guarantees.SerialBreakpoints
open Mmemu.Library.GuardedRun
open Mmemu.Source.Assembler6502 (Text)
open Mmemu.Source.Debugger Mmemu.Source.GdbServer Mmemu.Source.SerialMonitor
open Mmemu.Source.SerialMonitor.SerialMonitorServer

variable {σ : Type}

/-! ## What a line asks for -/

/-- What `B` and `W` act on. -/
inductive Kind where
  | breakpoint
  | watchpoint
  deriving DecidableEq, Repr

/-- The type that a kind adds. -/
def Kind.added : Kind → BreakpointType
  | breakpoint => .exec
  | watchpoint => .writeWatch

/-- The entries of a kind: whatever does not stop at execution watches. -/
def Kind.entry : Kind → Breakpoint → Bool
  | breakpoint, b => b.type == .exec
  | watchpoint, b => b.type != .exec

/-- The kind that a line is about, and its address if it has one. -/
def request (found : Char) (cmdLine : Text) : Option (Kind × Option (BitVec 32)) :=
  let (cmd, ss) := letter found cmdLine
  if cmdLine = [] then none
  else if cmd = 'B' then some (.breakpoint, (hexOperand ss).map (·.1))
  else if cmd = 'W' then some (.watchpoint, (hexOperand ss).map (·.1))
  else none

/-- One more entry at the end, enabled and with a number of its own. -/
def Adds (kind : Kind) (addr : BitVec 32) (bps bps' : List Breakpoint) : Prop :=
  ∃ b, bps' = bps ++ [b] ∧ b.addr = addr ∧ b.type = kind.added ∧ b.enabled = true ∧
    b.id ∉ bps.map (·.id)

/-- With an address an entry is added; without one the entries of the kind are gone, and the others
are as they were. -/
def Grants (kind : Kind) (bps bps' : List Breakpoint) : Option (BitVec 32) → Prop
  | some addr => Adds kind addr bps bps'
  | none => bps' = bps.filter (!kind.entry ·)

/-- What the code needs for it. Without an address every entry has to be a breakpoint, or the first
one at `0xFFFFFFFF` to be the one watchpoint there is. -/
def Grantable (kind : Kind) (bps : List Breakpoint) : Option (BitVec 32) → Prop
  | some addr => addr ≠ 0xFFFFFFFF
  | none => bps.filter Kind.watchpoint.entry = match kind with
    | .breakpoint => []
    | .watchpoint => (bps.find? (·.addr == 0xFFFFFFFF)).toList

/-! ## Runs -/

/-- A line, and what the other front ends and the machine do between the lines: any changes of an
entry but of its number. -/
inductive Event (σ : Type) where
  | line (found : Char) (cmdLine : Text)
  | machine (machine : σ)
  | add (addr : BitVec 32) (type : BreakpointType)
  | remove (id : ℕ)
  | removeByAddress (addr : BitVec 32)
  | alter (change : Breakpoint → Breakpoint) (keeps : ∀ b, (change b).id = b.id)

def Event.onList : Event σ → BreakpointList → BreakpointList
  | line _ _, l | machine _, l => l
  | add addr type, l => l.add addr type
  | remove id, l => l.remove id
  | removeByAddress addr, l => Mmemu.Source.SerialMonitor.removeByAddress l addr
  | alter change _, l => { l with m_breakpoints := l.m_breakpoints.map change }

/-- A monitor that has just been started. -/
def start (machine : σ) : Session σ where
  machine := machine
  m_dbg := some .empty
  m_lastMemAddr := 0
  m_uartDivisor := 20

variable (m : SerialMonitorServer σ)

/-- The session after an event. A line that faults leaves it as it was. -/
def next (s : Session σ) : Event σ → Session σ
  | .line found cmdLine => ((m.executeCommand s found cmdLine).map (·.2)).getD s
  | .machine machine => { s with machine }
  | event => { s with m_dbg := s.m_dbg.map event.onList }

/-- A line has an outcome, and does what it asks for. -/
def Acts (s : Session σ) : Event σ → Prop
  | .line found cmdLine => ∃ text s', m.executeCommand s found cmdLine = some (text, s') ∧
      ∀ l kind addr, s.m_dbg = some l → request found cmdLine = some (kind, addr) →
        ∃ l', s'.m_dbg = some l' ∧ Grants kind l.m_breakpoints l'.m_breakpoints addr
  | _ => True

/-- No line sets the divisor `0xFFFFFFFF`, nor asks for what the list does not allow. -/
def Sound (s : Session σ) : Event σ → Prop
  | .line found cmdLine =>
    (cmdLine ≠ [] → (letter found cmdLine).1 = '+' →
      (hexOperand (letter found cmdLine).2).map (·.1) ≠ some 0xFFFFFFFF) ∧
    ∀ l kind addr, s.m_dbg = some l → request found cmdLine = some (kind, addr) →
      Grantable kind l.m_breakpoints addr
  | _ => True

/-! ## Numbers of entries -/

/-- Every entry has a number of its own, and the next one is free. -/
structure Identified (l : BreakpointList) : Prop where
  distinct : (l.m_breakpoints.map (·.id)).Nodup
  below : ∀ b ∈ l.m_breakpoints, b.id < l.m_nextId

theorem Identified.fresh {l : BreakpointList} (h : Identified l) :
    l.m_nextId ∉ l.m_breakpoints.map (·.id) := by
  intro mem
  obtain ⟨b, mem, same⟩ := List.mem_map.mp mem
  exact absurd (h.below b mem) (by omega)

theorem Identified.add {l : BreakpointList} (h : Identified l) (addr : BitVec 32)
    (type : BreakpointType) : Identified (l.add addr type) := by
  constructor
  · simpa [BreakpointList.add, List.nodup_append] using
      ⟨h.distinct, fun b mem same => h.fresh (List.mem_map.mpr ⟨b, mem, same⟩)⟩
  · intro b mem
    rcases List.mem_append.mp mem with old | new
    · exact Nat.lt_succ_of_lt (h.below b old)
    · rw [List.mem_singleton.mp new]
      exact Nat.lt_succ_self _

/-- Entries may be left out, as long as the others keep their order. -/
theorem Identified.sublist {l : BreakpointList} (h : Identified l) {bps : List Breakpoint}
    (part : bps.Sublist l.m_breakpoints) : Identified { l with m_breakpoints := bps } :=
  ⟨h.distinct.sublist (part.map _), fun b mem => h.below b (part.mem mem)⟩

/-- Entries may change, as long as they keep their numbers. -/
theorem Identified.map {l : BreakpointList} (h : Identified l) {change : Breakpoint → Breakpoint}
    (keeps : ∀ b, (change b).id = b.id) :
    Identified { l with m_breakpoints := l.m_breakpoints.map change } := by
  constructor
  · rw [List.map_map, show ((·.id) ∘ change : Breakpoint → ℕ) = (·.id) from funext keeps]
    exact h.distinct
  · intro b changed
    obtain ⟨old, mem, rfl⟩ := List.mem_map.mp changed
    rw [keeps]
    exact h.below old mem

theorem Identified.foldl_remove {l : BreakpointList} (h : Identified l) (ids : List ℕ) :
    Identified (ids.foldl BreakpointList.remove l) := by
  induction ids generalizing l with
  | nil => exact h
  | cons id rest ih => exact ih (h.sublist List.eraseP_sublist)

/-- A session whose list, if there is one, has numbered entries. -/
def Kept (s : Session σ) : Prop := ∀ l, s.m_dbg = some l → Identified l

theorem Kept.map {s : Session σ} (kept : Kept s) {change : BreakpointList → BreakpointList}
    (keeps : ∀ l, Identified l → Identified (change l)) {s' : Session σ}
    (changed : s'.m_dbg = s.m_dbg.map change) : Kept s' := by
  intro l' is
  rw [changed] at is
  obtain ⟨l, old, rfl⟩ := Option.map_eq_some_iff.mp is
  exact keeps l (kept l old)

theorem Kept.ran {s : Session σ} (kept : Kept s) (done : σ × (Breakpoint → ℕ)) :
    Kept (s.ran done) :=
  kept.map (fun l h => (h.map fun _ => rfl : Identified (countHits done.2 l))) rfl

theorem Kept.steps {s : Session σ} (kept : Kept s) (cpu : ICore σ) (n : ℕ) :
    Kept (steps cpu n s) := by
  induction n generalizing s with
  | zero => exact kept
  | succ n ih => exact ih (kept.ran _)

theorem Kept.breakpoint {s : Session σ} (kept : Kept s) (addr : BitVec 32) :
    Kept (cmd_breakpoint s addr).2 := by
  unfold cmd_breakpoint
  cases list : s.m_dbg with
  | none => exact kept
  | some l =>
    intro l' is
    dsimp only at is
    split at is
    · cases is
      exact (kept l list).foldl_remove _
    · cases is
      exact (kept l list).add addr .exec

theorem Kept.watchpoint {s : Session σ} (kept : Kept s) (addr : BitVec 32) :
    Kept (cmd_watchpoint s addr).2 := by
  unfold cmd_watchpoint
  cases list : s.m_dbg with
  | none => exact kept
  | some l =>
    intro l' is
    dsimp only at is
    split at is
    · cases is
      exact (kept l list).sublist List.eraseP_sublist
    · cases is
      exact (kept l list).add addr .writeWatch

theorem Kept.interrupts {s : Session σ} (kept : Kept s) (subcmd : String) :
    Kept (m.cmd_interrupts s subcmd).2 := by
  unfold cmd_interrupts
  cases m.m_cpu with
  | none => exact kept
  | some cpu =>
    dsimp only
    unfold withStatus
    cases statusRegister cpu with
    | none => split_ifs <;> exact kept
    | some pReg => split_ifs <;> exact kept

theorem Kept.memory {s : Session σ} (kept : Kept s) (addr : BitVec 32) :
    Kept (m.cmd_memory s addr).2 := by
  unfold cmd_memory
  cases m.m_bus with
  | none => exact kept
  | some bus => exact kept

theorem Kept.setmemory {s : Session σ} (kept : Kept s) (addr : BitVec 32) (value : BitVec 8) :
    Kept (m.cmd_setmemory s addr value).2 := by
  unfold cmd_setmemory
  cases m.m_bus with
  | none => exact kept
  | some bus => exact kept.ran _

theorem Kept.setpc {s : Session σ} (kept : Kept s) (addr : BitVec 32) :
    Kept (m.cmd_setpc s addr).2 := by
  unfold cmd_setpc
  cases m.m_cpu with
  | none => exact kept
  | some cpu => exact kept

theorem Kept.step {s : Session σ} (kept : Kept s) (count : BitVec 32) :
    Kept (m.cmd_step s count).2 := by
  unfold cmd_step
  cases m.m_cpu with
  | none => exact kept
  | some cpu => exact kept.steps cpu count.toNat

/-- No command takes the numbers away. -/
theorem Kept.dispatch {s s' : Session σ} (kept : Kept s) {cmd : Char} {ss : Text} {text : String}
    (done : m.dispatch s cmd ss = some (text, s')) : Kept s' := by
  have result : ∀ {o : String × Session σ}, Kept o.2 → some o = some (text, s') → Kept s' := by
    intro o keeps is
    cases is
    exact keeps
  have moved : ∀ addr, Kept { s with m_lastMemAddr := addr } := fun _ => kept
  unfold SerialMonitorServer.dispatch at done
  split at done
  all_goals try exact result kept done
  all_goals split at done
  all_goals try exact result kept done
  -- the commands that may change the session, in the order of their letters in the switch
  · exact result ((moved _).memory m _) done
  · exact result (kept.memory m _) done
  · exact result (kept.setmemory m _ _) done
  · exact result (kept.setpc m _) done
  · exact result (kept.step m _) done
  · exact result (kept.step m _) done
  · exact result (kept.breakpoint _) done
  · exact result (kept.breakpoint _) done
  · exact result (kept.watchpoint _) done
  · exact result (kept.watchpoint _) done
  · unfold cmd_uart_divisor at done
    split at done
    · cases done
    · exact result kept done
  · exact result (kept.interrupts m _) done

theorem executeCommand_eq (s : Session σ) (found : Char) (cmdLine : Text) :
    m.executeCommand s found cmdLine = if cmdLine = [] then some ("", s)
      else m.dispatch s (letter found cmdLine).1 (letter found cmdLine).2 := rfl

theorem Kept.next {s : Session σ} (kept : Kept s) (event : Event σ) : Kept (next m s event) := by
  cases event with
  | line found cmdLine =>
    change Kept (((m.executeCommand s found cmdLine).map (·.2)).getD s)
    rw [executeCommand_eq]
    by_cases empty : cmdLine = []
    · rw [if_pos empty]
      exact kept
    · rw [if_neg empty]
      cases done : m.dispatch s (letter found cmdLine).1 (letter found cmdLine).2 with
      | none => exact kept
      | some result => exact kept.dispatch m done
  | machine machine => exact kept
  | add addr type => exact kept.map (fun _ h => h.add addr type) rfl
  | remove id => exact kept.map (fun _ h => h.sublist List.eraseP_sublist) rfl
  | removeByAddress addr => exact kept.map (fun _ h => h.sublist List.eraseP_sublist) rfl
  | alter change keeps => exact kept.map (fun _ h => h.map keeps) rfl

/-! ## One line -/

/-- A line divides by zero exactly if it sets the largest divisor. -/
theorem executeCommand_none_iff (s : Session σ) (found : Char) (cmdLine : Text) :
    m.executeCommand s found cmdLine = none ↔
      cmdLine ≠ [] ∧ (letter found cmdLine).1 = '+' ∧
        (hexOperand (letter found cmdLine).2).map (·.1) = some 0xFFFFFFFF := by
  rw [executeCommand_eq]
  by_cases empty : cmdLine = []
  · simp [empty]
  rw [if_neg empty]
  generalize (letter found cmdLine).1 = cmd
  generalize (letter found cmdLine).2 = ss
  by_cases divides : cmd = '+'
  · subst divides
    unfold SerialMonitorServer.dispatch
    cases operand : hexOperand ss with
    | none => simp
    | some read =>
      obtain ⟨divisor, rest⟩ := read
      have zero : divisor + 1 = 0 ↔ divisor = 0xFFFFFFFF := by
        constructor <;> intro h <;> bv_omega
      have faults : cmd_uart_divisor s divisor = none ↔ divisor + 1 = 0 := by
        unfold cmd_uart_divisor
        dsimp only
        by_cases wraps : divisor + 1 = 0
        · rw [if_pos wraps]
          exact iff_of_true rfl wraps
        · rw [if_neg wraps]
          exact iff_of_false (Option.some_ne_none _) wraps
      rw [Option.map_some, Option.some_inj]
      change cmd_uart_divisor s divisor = none ↔ _
      rw [faults, zero]
      exact ⟨fun largest => ⟨empty, rfl, largest⟩, fun all => all.2.2⟩
  · refine iff_of_false ?_ fun all => divides all.2.1
    unfold SerialMonitorServer.dispatch
    split
    all_goals try exact Option.some_ne_none _
    all_goals try exact absurd rfl divides
    all_goals split <;> exact Option.some_ne_none _

/-- What the two commands do with the address that they are given. -/
def act : Kind → Session σ → BitVec 32 → String × Session σ
  | .breakpoint => cmd_breakpoint
  | .watchpoint => cmd_watchpoint

/-- A line without an address runs as one with the address `0xFFFFFFFF`. -/
theorem executeCommand_request {s : Session σ} {found : Char} {cmdLine : Text} {kind : Kind}
    {addr : Option (BitVec 32)} (asks : request found cmdLine = some (kind, addr)) :
    m.executeCommand s found cmdLine = some (act kind s (addr.getD 0xFFFFFFFF)) := by
  rw [executeCommand_eq]
  unfold request at asks
  generalize (letter found cmdLine) = parts at asks ⊢
  obtain ⟨cmd, ss⟩ := parts
  dsimp only at asks ⊢
  split_ifs at asks with empty breaks watches
  · cases asks
    subst breaks
    rw [if_neg empty]
    unfold SerialMonitorServer.dispatch
    cases hexOperand ss <;> rfl
  · cases asks
    subst watches
    rw [if_neg empty]
    unfold SerialMonitorServer.dispatch
    cases hexOperand ss <;> rfl

/-- Taking every number out leaves nothing. -/
theorem foldl_remove_ids (bps : List Breakpoint) (free : ℕ) :
    (bps.map (·.id)).foldl BreakpointList.remove ⟨bps, free⟩ = ⟨[], free⟩ := by
  induction bps with
  | nil => rfl
  | cons b rest ih =>
    rw [List.map_cons, List.foldl_cons]
    have first : BreakpointList.remove ⟨b :: rest, free⟩ b.id = ⟨rest, free⟩ := by
      simp [BreakpointList.remove]
    rw [first]
    exact ih

/-- Erasing the first entry of one sort leaves exactly the entries that are not of another if the
first of the one is the only one of the other. -/
theorem eraseP_eq_filter_iff {α : Type} (first kind : α → Bool) (xs : List α) :
    xs.eraseP first = xs.filter (!kind ·) ↔ xs.filter kind = (xs.find? first).toList := by
  induction xs with
  | nil => exact iff_of_true rfl rfl
  | cons x rest ih =>
    cases of_kind : kind x with
    | true =>
      have kept : (x :: rest).filter kind = x :: rest.filter kind := List.filter_cons_of_pos of_kind
      have left : (x :: rest).filter (!kind ·) = rest.filter (!kind ·) :=
        List.filter_cons_of_neg (by simp [of_kind])
      cases here : first x with
      | true =>
        rw [List.eraseP_cons_of_pos here, List.find?_cons_of_pos here, Option.toList_some, kept, left]
        simp [eq_comm (a := rest)]
      | false =>
        rw [List.eraseP_cons_of_neg (by simp [here]), List.find?_cons_of_neg (by simp [here]), kept, left]
        refine iff_of_false (fun same => ?_) fun single => ?_
        · have mem : x ∈ rest.filter (!kind ·) := by simp [← same]
          simp [of_kind] at mem
        · cases found : rest.find? first with
          | none => simp [found] at single
          | some y =>
            have is_first := List.find?_some found
            simp only [found, Option.toList_some, List.cons.injEq] at single
            rw [← single.1, here] at is_first
            cases is_first
    | false =>
      have left : (x :: rest).filter kind = rest.filter kind :=
        List.filter_cons_of_neg (by simp [of_kind])
      have kept : (x :: rest).filter (!kind ·) = x :: rest.filter (!kind ·) :=
        List.filter_cons_of_pos (by simp [of_kind])
      cases here : first x with
      | true =>
        rw [List.eraseP_cons_of_pos here, List.find?_cons_of_pos here, Option.toList_some, kept, left]
        refine iff_of_false (fun same => ?_) fun single => ?_
        · -- nothing of the rest is of the kind, so that it would be longer than itself
          have none_ : ∀ y ∈ rest, (!kind y) = true := by
            intro y mem
            rw [same] at mem
            rcases List.mem_cons.mp mem with rfl | mem
            · simp [of_kind]
            · exact (List.mem_filter.mp mem).2
          rw [List.filter_eq_self.mpr none_] at same
          exact absurd (congrArg List.length same) (by simp)
        · have mem : x ∈ rest.filter kind := by
            rw [single]
            exact List.mem_singleton_self x
          simp [of_kind] at mem
      | false =>
        rw [List.eraseP_cons_of_neg (by simp [here]), List.find?_cons_of_neg (by simp [here]), kept, left,
          List.cons.injEq]
        simpa using ih

section
variable {s : Session σ} {l : BreakpointList} (is : s.m_dbg = some l)
include is

theorem act_set (kind : Kind) {addr : BitVec 32} (other : addr ≠ 0xFFFFFFFF) :
    (act kind s addr).2.m_dbg = some (l.add addr kind.added) := by
  cases kind with
  | breakpoint =>
    change (cmd_breakpoint s addr).2.m_dbg = _
    unfold cmd_breakpoint
    rw [is]
    dsimp only
    rw [if_neg other]
    rfl
  | watchpoint =>
    change (cmd_watchpoint s addr).2.m_dbg = _
    unfold cmd_watchpoint
    rw [is]
    dsimp only
    rw [if_neg other]
    rfl

theorem breakpoint_clear :
    (act .breakpoint s 0xFFFFFFFF).2.m_dbg = some { l with m_breakpoints := [] } := by
  change (cmd_breakpoint s 0xFFFFFFFF).2.m_dbg = _
  unfold cmd_breakpoint
  rw [is]
  exact congrArg some (foldl_remove_ids l.m_breakpoints l.m_nextId)

theorem watchpoint_clear :
    (act .watchpoint s 0xFFFFFFFF).2.m_dbg = some (removeByAddress l 0xFFFFFFFF) := by
  change (cmd_watchpoint s 0xFFFFFFFF).2.m_dbg = _
  unfold cmd_watchpoint
  rw [is]
  rfl

/-- Clearing adds nothing. -/
theorem act_clear_length (kind : Kind) {l' : BreakpointList}
    (after : (act kind s 0xFFFFFFFF).2.m_dbg = some l') :
    l'.m_breakpoints.length ≤ l.m_breakpoints.length := by
  cases kind with
  | breakpoint =>
    rw [breakpoint_clear is] at after
    cases after
    exact Nat.zero_le _
  | watchpoint =>
    rw [watchpoint_clear is] at after
    cases after
    exact List.length_eraseP_le

/-- What a request does to the list is what was asked for exactly if the list allows it. -/
theorem act_grants_iff (identified : Identified l) (kind : Kind) (addr : Option (BitVec 32)) :
    (∃ l', (act kind s (addr.getD 0xFFFFFFFF)).2.m_dbg = some l' ∧
      Grants kind l.m_breakpoints l'.m_breakpoints addr) ↔ Grantable kind l.m_breakpoints addr := by
  cases addr with
  | some addr =>
    by_cases other : addr = 0xFFFFFFFF
    · subst other
      refine iff_of_false ?_ fun other => other rfl
      rintro ⟨l', after, b, longer, -⟩
      have shorter := act_clear_length is kind after
      rw [longer, List.length_append, List.length_singleton] at shorter
      omega
    · refine iff_of_true ⟨_, act_set is kind other, ?_⟩ other
      exact ⟨_, rfl, rfl, rfl, rfl, identified.fresh⟩
  | none =>
    cases kind with
    | breakpoint =>
      have exact_ : ([] : List Breakpoint) = l.m_breakpoints.filter (!Kind.breakpoint.entry ·) ↔
          l.m_breakpoints.filter Kind.watchpoint.entry = [] := eq_comm
      rw [Option.getD_none, breakpoint_clear is]
      refine Iff.trans ⟨?_, fun grants => ⟨_, rfl, grants⟩⟩ exact_
      rintro ⟨l', after, grants⟩
      cases after
      exact grants
    | watchpoint =>
      have exact_ := eraseP_eq_filter_iff (·.addr == 0xFFFFFFFF) Kind.watchpoint.entry l.m_breakpoints
      rw [Option.getD_none, watchpoint_clear is]
      refine Iff.trans ⟨?_, fun grants => ⟨_, rfl, grants⟩⟩ exact_
      rintro ⟨l', after, grants⟩
      cases after
      exact grants

end

theorem acts_iff {s : Session σ} (kept : Kept s) (event : Event σ) :
    Acts m s event ↔ Sound s event := by
  cases event with
  | line found cmdLine =>
    constructor
    · rintro ⟨text, s', done, grants⟩
      refine ⟨fun some_ plus largest => ?_, fun l kind addr is asks => ?_⟩
      · rw [(executeCommand_none_iff m s found cmdLine).mpr ⟨some_, plus, largest⟩] at done
        cases done
      · have result := executeCommand_request m (s := s) asks
        rw [done, Option.some_inj] at result
        obtain ⟨l', after, granted⟩ := grants l kind addr is asks
        rw [show s' = _ from congrArg Prod.snd result] at after
        exact (act_grants_iff is (kept l is) kind addr).mp ⟨l', after, granted⟩
    · rintro ⟨divides, grantable⟩
      have runs : m.executeCommand s found cmdLine ≠ none := fun faults =>
        have ⟨some_, plus, largest⟩ := (executeCommand_none_iff m s found cmdLine).mp faults
        divides some_ plus largest
      obtain ⟨result, done⟩ := Option.ne_none_iff_exists'.mp runs
      refine ⟨result.1, result.2, done, fun l kind addr is asks => ?_⟩
      have same := executeCommand_request m (s := s) asks
      rw [done, Option.some_inj] at same
      rw [same]
      exact (act_grants_iff is (kept l is) kind addr).mpr (grantable l kind addr is asks)
  | machine | add | remove | removeByAddress | alter => exact Iff.rfl

/-! ## The whole run -/

/-- In every run every line does what it asks for, and none divides by zero, exactly if every line
finds the list such that it can. -/
theorem lines_act_iff (machine : σ) (events : List (Event σ)) :
    Guarded (next m) (Acts m) (start machine) events ↔
      Guarded (next m) Sound (start machine) events := by
  have fresh : Kept (start machine) := by
    intro l is
    cases is
    exact ⟨List.nodup_nil, fun b mem => by cases mem⟩
  constructor
  · exact fun run => run.mono _ Kept (fun s e kept _ => kept.next m e)
      (fun s e kept acts => (acts_iff m kept e).mp acts) fresh
  · exact fun run => run.mono _ Kept (fun s e kept _ => kept.next m e)
      (fun s e kept sound => (acts_iff m kept e).mpr sound) fresh

/-- A monitor with nothing behind it. -/
def bare : SerialMonitorServer Unit where
  m_cpu := none
  m_bus := none
  trace _ := []

/-- `B` takes a watchpoint away that another front end has set; and there is a line that divides
by zero. -/
theorem clear_takes_watchpoint :
    ¬Guarded (next bare) (Acts bare) (start ()) [.add 0x2000 .readWatch, .line ' ' ['B']] ∧
      ¬Guarded (next bare) (Acts bare) (start ()) [.line ' ' "+ FFFFFFFF".toList] := by
  constructor
  · rintro ⟨-, ⟨text, s', done, grants⟩, -⟩
    obtain ⟨l', after, granted⟩ := grants (BreakpointList.empty.add 0x2000 .readWatch) .breakpoint none rfl rfl
    have nothing : s'.m_dbg.map (·.m_breakpoints.length) = some 0 := by
      rw [show s' = _ from (congrArg Prod.snd (Option.some.inj done)).symm]
      rfl
    have one : l'.m_breakpoints.length = 1 := by
      rw [show l'.m_breakpoints = _ from granted]
      rfl
    rw [after, Option.map_some, one] at nothing
    cases nothing
  · rintro ⟨⟨text, s', done, -⟩, -⟩
    cases done

end Mmemu.Guarantees.SerialBreakpoints
