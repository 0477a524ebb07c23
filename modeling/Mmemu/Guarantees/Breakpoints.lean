import Mmemu.Library.Runs
import Mmemu.Source.DebuggerFrame
import Mmemu.Source.Monitors

/-!
# GDB server: breakpoints as a set

Only software breakpoints are supported: the packets of the other types are answered so and
change nothing. A software breakpoint that is not inserted again while it stands is there
exactly if the last packet for its address inserted it.
-/
namespace Mmemu.Guarantees.BreakpointPackets
open Mmemu.Source.Assembler6502 (Text)
open Mmemu.Source.Cpu6502 Mmemu.Source.Debugger Mmemu.Source.GdbServer Mmemu.Source.MemoryBus
open Mmemu.Source.StdText

/-- A packet `Zt,addr,kind` or `zt,addr,kind`, whatever way its numbers are written. -/
structure Packet where
  insert : Bool
  type : Fin 5
  addr : BitVec 32
  typeText : Text
  addrText : Text
  kindText : Text
  type_reads : stoi typeText = some (type.val : ℤ)
  addr_reads : (stoul16 addrText).map (·.setWidth 32) = some addr
  type_plain : ',' ∉ typeText
  addr_plain : ',' ∉ addrText

namespace Packet

def params (p : Packet) : Text := p.typeText ++ ',' :: (p.addrText ++ ',' :: p.kindText)

def handle (p : Packet) (l : BreakpointList) : Handled :=
  if p.insert then handleInsertBreakpoint (some l) p.params
  else handleRemoveBreakpoint (some l) p.params

/-- The change that a packet of type 0 asks for. -/
def change (p : Packet) (l : BreakpointList) : BreakpointList :=
  if p.insert then l.add p.addr .exec else l.removeExec p.addr

end Packet

theorem split_comma {text : Text} (plain : ',' ∉ text) (rest : Text) :
    (text ++ ',' :: rest).takeWhile (· != ',') = text ∧
      (text ++ ',' :: rest).dropWhile (· != ',') = ',' :: rest := by
  have all : ∀ c ∈ text, (c != ',') = true := by
    intro c mem
    simpa using fun same : c = ',' => plain (same ▸ mem)
  constructor
  · rw [List.takeWhile_append_of_pos all]
    simp
  · rw [List.dropWhile_append_of_pos all]
    simp

theorem fields_params (p : Packet) : fields p.params = some (p.typeText, p.addrText) := by
  have type := split_comma p.type_plain (p.addrText ++ ',' :: p.kindText)
  have addr := split_comma p.addr_plain p.kindText
  unfold fields Packet.params
  rw [type.2]
  dsimp only
  rw [addr.2, type.1, addr.1]

theorem handle_eq (p : Packet) (l : BreakpointList) :
    p.handle l = some (if p.type = 0 then ("OK", some (p.change l)) else ("", some l)) := by
  obtain ⟨addr, reads, same⟩ := Option.map_eq_some_iff.mp p.addr_reads
  have shared : ∀ change, handleBreakpoint change (some l) p.params =
      some (if p.type = 0 then ("OK", some (change p.addr l)) else ("", some l)) := by
    intro change
    unfold handleBreakpoint
    rw [fields_params]
    by_cases zero : p.type = 0 <;> simp [p.type_reads, zero, reads, same]
  unfold Packet.handle Packet.change
  cases p.insert with
  | false => exact shared fun addr l => l.removeExec addr
  | true => exact shared fun addr l => l.add addr .exec

/-! ## Runs of packets -/

/-- The list after a packet. -/
def follow (l : BreakpointList) (p : Packet) : BreakpointList :=
  match p.handle l with
  | some (_, some l') => l'
  | _ => l

def after (l : BreakpointList) (packets : List Packet) : BreakpointList := packets.foldl follow l

theorem follow_eq (l : BreakpointList) (p : Packet) :
    follow l p = if p.type = 0 then p.change l else l := by
  unfold follow
  rw [handle_eq]
  by_cases zero : p.type = 0 <;> simp [zero]

theorem after_concat (l : BreakpointList) (packets : List Packet) (p : Packet) :
    after l (packets ++ [p]) = follow (after l packets) p := by
  unfold after
  rw [List.foldl_append]
  rfl

/-- The last packet for a type and an address inserts. -/
def lastInserts (packets : List Packet) (type : Fin 5) (addr : BitVec 32) : Bool :=
  (packets.reverse.find? fun p => p.type == type && p.addr == addr).any (·.insert)

theorem lastInserts_concat (packets : List Packet) (p : Packet) (type : Fin 5) (addr : BitVec 32) :
    lastInserts (packets ++ [p]) type addr =
      if p.type = type ∧ p.addr = addr then p.insert else lastInserts packets type addr := by
  unfold lastInserts
  rw [List.reverse_append, List.reverse_singleton, List.singleton_append, List.find?_cons]
  by_cases named : p.type = type ∧ p.addr = addr
  · simp [named]
  · rw [if_neg named]
    have other : (p.type == type && p.addr == addr) = false := by simpa using named
    rw [other]

/-- The debugger stops at an address for a type of packet: on execution, on a write, on a read,
or on either. -/
def Stops (l : BreakpointList) (type : Fin 5) (addr : BitVec 32) (cpu : CPU6502State)
    (bus : FlatMemoryBus) : Bool :=
  match type with
  | 0 | 1 => (checkExec l.m_breakpoints addr cpu bus).isSome
  | 2 => (checkWrite l.m_breakpoints addr).isSome
  | 3 => (checkRead l.m_breakpoints addr).isSome
  | 4 => (checkWrite l.m_breakpoints addr).isSome || (checkRead l.m_breakpoints addr).isSome

/-- Every address stops for a type exactly if the last packet for both inserts. -/
def SetSemantics (l : BreakpointList) (packets : List Packet) : Prop :=
  ∀ type addr cpu bus, Stops (after l packets) type addr cpu bus = lastInserts packets type addr

/-- No software breakpoint is inserted while its last packet inserted it. -/
def Once (packets : List Packet) : Prop :=
  ∀ before p rest, packets = before ++ p :: rest → p.type = 0 → p.insert = true →
    lastInserts before 0 p.addr = false

theorem Once.before {packets : List Packet} {p : Packet} (once : Once (packets ++ [p])) :
    Once packets := by
  intro before q rest parts
  exact once before q (rest ++ [p]) (by simp [parts])

/-! ## Software breakpoints -/

def isExec (b : Breakpoint) : Bool := b.type == .exec

/-- The addresses of the software breakpoints, in the order of the list. -/
def execs (bps : List Breakpoint) : List (BitVec 32) := (bps.filter isExec).map (·.addr)

/-- Breakpoints without conditions, each with a number of its own. -/
structure Numbered (l : BreakpointList) : Prop where
  distinct : (l.m_breakpoints.map (·.id)).Nodup
  below : ∀ b ∈ l.m_breakpoints, b.id < l.m_nextId
  plain : ∀ b ∈ l.m_breakpoints, b.type = .exec →
    b.enabled = true ∧ ∀ cpu bus, b.condition cpu bus = true

theorem checkExec_iff {l : BreakpointList} (h : Numbered l) (addr : BitVec 32) (cpu : CPU6502State)
    (bus : FlatMemoryBus) :
    (checkExec l.m_breakpoints addr cpu bus).isSome = true ↔ addr ∈ execs l.m_breakpoints := by
  unfold checkExec execs
  rw [hit_isSome, List.any_eq_true]
  constructor
  · rintro ⟨b, mem, found⟩
    simp only [Bool.and_eq_true, decide_eq_true_eq, beq_iff_eq] at found
    exact List.mem_map.mpr ⟨b, List.mem_filter.mpr ⟨mem, by simp [isExec, found]⟩, found.1.2⟩
  · intro mem
    obtain ⟨b, exec, rfl⟩ := List.mem_map.mp mem
    obtain ⟨mem, type⟩ := List.mem_filter.mp exec
    have plain := h.plain b mem (by simpa [isExec] using type)
    refine ⟨b, mem, ?_⟩
    simp only [isExec, beq_iff_eq] at type
    simp [type, plain]

theorem execs_add (l : BreakpointList) (addr : BitVec 32) :
    execs (l.add addr .exec).m_breakpoints = execs l.m_breakpoints ++ [addr] := by
  unfold BreakpointList.add execs
  rw [List.filter_append, List.map_append]
  rfl

theorem Numbered.add {l : BreakpointList} (h : Numbered l) (addr : BitVec 32) :
    Numbered (l.add addr .exec) := by
  constructor
  · have fresh : l.m_nextId ∉ l.m_breakpoints.map (·.id) := by
      intro mem
      obtain ⟨b, mem, same⟩ := List.mem_map.mp mem
      exact absurd (h.below b mem) (by omega)
    simpa [BreakpointList.add, List.nodup_append] using
      ⟨h.distinct, fun b mem same => fresh (List.mem_map.mpr ⟨b, mem, same⟩)⟩
  · intro b mem
    rcases List.mem_append.mp mem with old | new
    · exact Nat.lt_succ_of_lt (h.below b old)
    · rw [List.mem_singleton.mp new]
      exact Nat.lt_succ_self _
  · intro b mem exec
    rcases List.mem_append.mp mem with old | new
    · exact h.plain b old exec
    · rw [List.mem_singleton.mp new]
      exact ⟨rfl, fun _ _ => rfl⟩

theorem Numbered.remove {l : BreakpointList} (h : Numbered l) (id : ℕ) : Numbered (l.remove id) := by
  have part : (l.m_breakpoints.eraseP fun b => b.id == id).Sublist l.m_breakpoints :=
    List.eraseP_sublist
  constructor
  · exact h.distinct.sublist (part.map _)
  · intro b mem
    exact h.below b (part.mem mem)
  · intro b mem
    exact h.plain b (part.mem mem)

/-- Where numbers are distinct, removing what was found by its number removes the first found. -/
theorem eraseP_id_of_find {bps : List Breakpoint} (distinct : (bps.map (·.id)).Nodup)
    {found : Breakpoint → Bool} {bp : Breakpoint} (first : bps.find? found = some bp) :
    bps.eraseP (fun b => b.id == bp.id) = bps.eraseP found := by
  induction bps with
  | nil => cases first
  | cons b rest ih =>
    obtain ⟨other, distinct⟩ := List.nodup_cons.mp distinct
    rw [List.find?_cons] at first
    cases here : found b with
    | true =>
      rw [here] at first
      cases first
      simp [here]
    | false =>
      rw [here] at first
      have ne : b.id ≠ bp.id := fun same =>
        other (List.mem_map.mpr ⟨bp, List.mem_of_find?_eq_some first, same.symm⟩)
      simp [here, ne, ih distinct first]

theorem execs_eraseP (bps : List Breakpoint) (addr : BitVec 32) :
    execs (bps.eraseP fun b => b.addr == addr && b.type == .exec) = (execs bps).erase addr := by
  induction bps with
  | nil => rfl
  | cons b rest ih =>
    unfold execs at ih ⊢
    by_cases exec : b.type = .exec
    · by_cases at_ : b.addr = addr
      · simp [isExec, exec, at_]
      · simp [isExec, exec, at_, ih]
    · simp [isExec, exec, ih]

theorem others_eraseP (bps : List Breakpoint) (addr : BitVec 32) :
    (bps.eraseP fun b => b.addr == addr && b.type == .exec).filter (!isExec ·) =
      bps.filter (!isExec ·) := by
  unfold isExec
  induction bps with
  | nil => rfl
  | cons b rest ih =>
    by_cases exec : b.type = .exec
    · by_cases at_ : b.addr = addr
      · simp [exec, at_]
      · simp [exec, at_, ih]
    · simp [exec, ih]

/-- Removing takes away the first breakpoint at the address, if there is one. -/
theorem removeExec_eq {l : BreakpointList} (h : Numbered l) (addr : BitVec 32) :
    (l.removeExec addr).m_breakpoints =
      l.m_breakpoints.eraseP fun b => b.addr == addr && b.type == .exec := by
  unfold BreakpointList.removeExec
  cases first : l.m_breakpoints.find? fun b => b.addr == addr && b.type == .exec with
  | none => exact (List.eraseP_of_forall_not (by simpa using first)).symm
  | some bp => exact eraseP_id_of_find h.distinct first

theorem Numbered.removeExec {l : BreakpointList} (h : Numbered l) (addr : BitVec 32) :
    Numbered (l.removeExec addr) := by
  unfold BreakpointList.removeExec
  split
  · exact h.remove _
  · exact h

/-! ## What a run leaves -/

/-- A list that packets have changed: every software breakpoint is there once, and where the last
packet inserted it. -/
structure Follows (start : BreakpointList) (packets : List Packet) (l : BreakpointList) : Prop where
  numbered : Numbered l
  single : (execs l.m_breakpoints).Nodup
  inserted : ∀ addr, addr ∈ execs l.m_breakpoints ↔ lastInserts packets 0 addr = true
  others : l.m_breakpoints.filter (!isExec ·) = start.m_breakpoints.filter (!isExec ·)

theorem Follows.step {start l : BreakpointList} {packets : List Packet} {p : Packet}
    (h : Follows start packets l)
    (once : p.type = 0 → p.insert = true → lastInserts packets 0 p.addr = false) :
    Follows start (packets ++ [p]) (follow l p) := by
  rw [follow_eq]
  by_cases zero : p.type = 0
  · rw [if_pos zero]
    unfold Packet.change
    cases insert : p.insert with
    | true =>
      have absent : p.addr ∉ execs l.m_breakpoints := by
        rw [h.inserted, once zero insert]
        decide
      refine ⟨h.numbered.add p.addr, ?_, ?_, ?_⟩
      · rw [if_pos rfl, execs_add]
        refine List.nodup_append.mpr ⟨h.single, List.nodup_singleton _, fun addr mem addr' new => ?_⟩
        rw [List.mem_singleton.mp new]
        exact fun same => absent (same ▸ mem)
      · intro addr
        rw [if_pos rfl, execs_add, lastInserts_concat]
        by_cases same : p.addr = addr
        · simp [same, zero, insert]
        · simp [same, h.inserted, Ne.symm same]
      · rw [if_pos rfl, ← h.others]
        simp [BreakpointList.add, isExec]
    | false =>
      rw [if_neg Bool.false_ne_true]
      refine ⟨h.numbered.removeExec p.addr, ?_, ?_, ?_⟩
      · rw [removeExec_eq h.numbered, execs_eraseP]
        exact h.single.erase _
      · intro addr
        rw [removeExec_eq h.numbered, execs_eraseP, h.single.mem_erase_iff, lastInserts_concat]
        by_cases same : p.addr = addr
        · simp [same, zero, insert]
        · simp [same, h.inserted, Ne.symm same]
      · rw [removeExec_eq h.numbered, others_eraseP, h.others]
  · rw [if_neg zero]
    refine ⟨h.numbered, h.single, fun addr => ?_, h.others⟩
    rw [h.inserted, lastInserts_concat, if_neg fun named => zero named.1]

theorem follows_after {start : BreakpointList} (numbered : Numbered start)
    (none_ : execs start.m_breakpoints = []) {packets : List Packet} (once : Once packets) :
    Follows start packets (after start packets) := by
  induction packets using List.reverseRecOn with
  | nil =>
    refine ⟨numbered, ?_, ?_, rfl⟩
    · change (execs start.m_breakpoints).Nodup
      rw [none_]
      exact List.nodup_nil
    · intro addr
      change addr ∈ execs start.m_breakpoints ↔ _
      simp [none_, lastInserts]
  | append_singleton packets p ih =>
    rw [after_concat]
    exact (ih once.before).step (once packets p [] rfl)

/-- What packets settle, on a list that other front ends may watch with. -/
structure Settled (start : BreakpointList) (packets : List Packet) : Prop where
  exec : ∀ addr cpu bus, (checkExec (after start packets).m_breakpoints addr cpu bus).isSome =
    lastInserts packets 0 addr
  watches : (after start packets).m_breakpoints.filter (!isExec ·) =
    start.m_breakpoints.filter (!isExec ·)
  unsupported : ∀ p ∈ packets, p.type ≠ 0 → ∀ l, p.handle l = some ("", some l)

/-- The packets settle which software breakpoints there are, and nothing else. -/
theorem settled_after {start : BreakpointList} (numbered : Numbered start)
    (none_ : execs start.m_breakpoints = []) {packets : List Packet} (once : Once packets) :
    Settled start packets := by
  have follows := follows_after numbered none_ once
  constructor
  · intro addr cpu bus
    rw [Bool.eq_iff_iff, checkExec_iff follows.numbered, follows.inserted]
  · exact follows.others
  · intro p _ other l
    rw [handle_eq, if_neg other]

theorem numbered_empty : Numbered .empty := ⟨List.nodup_nil, nofun, nofun⟩

theorem once_nil : Once [] := by
  intro before p rest parts
  simp at parts

theorem Once.concat {packets : List Packet} (once : Once packets) {p : Packet}
    (fresh : p.type = 0 → p.insert = true → lastInserts packets 0 p.addr = false) :
    Once (packets ++ [p]) := by
  intro before q rest parts zero insert
  rcases List.eq_nil_or_concat rest with rfl | ⟨rest, last, rfl⟩
  · obtain ⟨rfl, same⟩ := List.append_inj' parts rfl
    cases same
    exact fresh zero insert
  · have parts' : packets ++ [p] = (before ++ q :: rest) ++ [last] := by simp [parts]
    obtain ⟨same, -⟩ := List.append_inj' parts' rfl
    exact once before q rest same zero insert

/-- `Z0,203,1`, or `z0,203,1`. -/
def software (insert : Bool) : Packet :=
  ⟨insert, 0, 0x203, ['0'], ['2', '0', '3'], ['1'], by decide, by decide, by decide, by decide⟩

/-- `Z2,d020,1`. -/
def writeWatch : Packet :=
  ⟨true, 2, 0xD020, ['2'], ['d', '0', '2', '0'], ['1'], by decide, by decide, by decide, by decide⟩

/-- A breakpoint inserted, removed and inserted again. -/
theorem settled_after_again : Settled .empty [software true, software false, software true] :=
  settled_after numbered_empty rfl
    (((once_nil.concat (fun _ _ => rfl)).concat (fun _ off => absurd off (by decide))).concat
      (fun _ _ => by decide))

/-- A write watch that a packet asks for is not there. -/
theorem not_setSemantics_watch : ¬ SetSemantics .empty [writeWatch] := by
  intro settles
  have stops := settles 2 0xD020 default (.new 16)
  revert stops
  decide

end Mmemu.Guarantees.BreakpointPackets

/-!
# Breakpoints after a resume

`resume` arms the skip of the address last paused on, and only reaching that address disarms
it. Where a run goes elsewhere first, the skip waits there and lets a later arrival pass. An
armed breakpoint is missed in no other way.
-/
namespace Mmemu.Guarantees.ArmedBreakpoints
open Mmemu.Source.MemoryBus
open Mmemu.Source.Cpu6502
open Mmemu.Source.Debugger
open Mmemu.Library.GuardedRun

/-! ## Sessions -/

/-- `fresh`: no instruction has been executed since the last resume. -/
structure Session where
  machine : Machine
  fresh : Bool

/-- The next step executes an instruction to its end. -/
def executed (m : Machine) : Bool := (instruction wiring m).isSome

def Session.after (s : Session) (c : Command) : Session where
  machine := obey s.machine c
  fresh := match c with
    | .resume => true
    | .core .step => s.fresh && !executed s.machine
    | _ => s.fresh

/-- An enabled EXEC breakpoint at PC whose condition is true. -/
def armed (m : Machine) : Bool := m.bus.debug.breakpoints.any fun b =>
  b.enabled && b.type = .exec && b.addr == m.state.pc.setWidth 32 &&
    b.condition m.state.sampled m.bus.bus

/-- PC has arrived at an armed breakpoint, and not with the first instruction after a resume. -/
def Arrived (s : Session) (c : Command) : Prop :=
  c = .core .step ∧ s.machine.state.executes = true ∧ armed s.machine = true ∧ s.fresh = false

/-- The step pauses in place of executing the instruction. -/
def held (m : Machine) : Bool := !executed m && (stepped m).bus.debug.paused

/-- Every arrival at an armed breakpoint pauses before the instruction executes. -/
def NeverMissed : Session → List Command → Prop :=
  Guarded Session.after fun s c => Arrived s c → held s.machine = true

/-- No arrival finds the skip of an earlier resume still waiting there. -/
def NoStaleSkip : Session → List Command → Prop :=
  Guarded Session.after fun s c =>
    Arrived s c → s.machine.bus.debug.resumeSkipAddr ≠ s.machine.state.pc.setWidth 32

/-! ## Steps of a session -/

theorem executed_eq {m : Machine} (executes : m.state.executes = true) :
    executed m = passes m.bus.debug m.sampled :=
  (instruction_isSome executes (.refl _)).trans (answer_passes _ _)

/-- A step that the observer stops leaves registers and memory alone and the debugger paused. -/
theorem stepped_stopped {m : Machine} (executes : m.state.executes = true)
    (stop : executed m = false) :
    (stepped m).state = m.state.sampled ∧ (stepped m).bus.bus = m.bus.bus ∧
      (stepped m).bus.debug.paused = true := by
  obtain ⟨d, h⟩ := stepped_executes executes
  have settings : SameSettings m.bus.debug d := h.settings
  rw [executed_eq executes, ← passes_settings settings, ← answer_passes] at stop
  obtain ⟨state, bus⟩ := h.stop stop
  have unskipped : m.sampled.state.pc.setWidth 32 ≠ d.resumeSkipAddr := by
    intro skip
    rw [(answer_skipping skip).1] at stop
    cases stop
  rw [state, bus]
  exact ⟨rfl, rfl, (answer_checked unskipped).2.2 stop⟩

/-- At an armed breakpoint the step is held precisely if the skip is not there. -/
theorem held_iff {m : Machine} (executes : m.state.executes = true) (arm : armed m = true) :
    held m = true ↔ m.bus.debug.resumeSkipAddr ≠ m.state.pc.setWidth 32 := by
  have passing : passes m.bus.debug m.sampled =
      decide (m.state.pc.setWidth 32 = m.bus.debug.resumeSkipAddr) := by
    change (_ || !(armed m || _)) = _
    rw [arm, Bool.true_or, Bool.not_true, Bool.or_false]
    rfl
  rw [held, Bool.and_eq_true, Bool.not_eq_true']
  constructor
  · rintro ⟨stop, -⟩ skip
    rw [executed_eq executes, passing, decide_eq_false_iff_not] at stop
    exact stop skip.symm
  · intro unskipped
    have stop : executed m = false := by
      rw [executed_eq executes, passing, decide_eq_false_iff_not]
      exact fun skip => unskipped skip.symm
    exact ⟨stop, (stepped_stopped executes stop).2.2⟩

/-! ## Runs -/

/-- A session misses an armed breakpoint precisely if an arrival there finds the skip of an
earlier resume. -/
theorem neverMissed_iff (s : Session) (commands : List Command) :
    NeverMissed s commands ↔ NoStaleSkip s commands := by
  refine guarded_congr Session.after _ (fun s c => ?_) s commands
  refine forall_congr' fun arrived => ?_
  exact held_iff arrived.2.1 arrived.2.2.1

theorem pc_ne_none (pc : BitVec 16) : pc.setWidth 32 ≠ ~~~(0 : BitVec 32) := by
  intro same
  have value := congrArg BitVec.toNat same
  have bound := pc.isLt
  simp at value
  omega

/-- Only an instruction at the skipped address disarms the skip. -/
theorem stepped_skip (m : Machine) :
    (stepped m).bus.debug.resumeSkipAddr =
      if m.state.executes = true ∧ m.state.pc.setWidth 32 = m.bus.debug.resumeSkipAddr
      then ~~~0 else m.bus.debug.resumeSkipAddr := by
  have entered (vector : BitVec 16) (c : Machine) :
      (interrupt wiring vector c).2.bus.debug.resumeSkipAddr = c.bus.debug.resumeSkipAddr := by
    have frame : Framed Kept Accessed c (interrupt wiring vector c).2 :=
      interrupt_keeps wiring (by simp [wiring]) vector c
    exact frame.bus.settings.resumeSkipAddr
  cases executes : m.state.executes with
  | true =>
    obtain ⟨d, h⟩ := stepped_executes executes
    have settings : SameSettings m.bus.debug d := h.settings
    have answered : (answer d m.sampled).2.resumeSkipAddr =
        if m.state.pc.setWidth 32 = m.bus.debug.resumeSkipAddr then ~~~0
        else m.bus.debug.resumeSkipAddr := by
      rw [← settings.resumeSkipAddr]
      split
      next skip => exact (answer_skipping (m := m.sampled) skip).2
      next unskipped => exact (answer_checked (m := m.sampled) unskipped).2.1
    have after : (stepped m).bus.debug.resumeSkipAddr =
        (answer d m.sampled).2.resumeSkipAddr := by
      cases ran : (answer d m.sampled).1 with
      | true => exact (h.run ran).2.settings.resumeSkipAddr
      | false => rw [(h.stop ran).2]
    rw [after, answered]
    simp
  | false =>
    rw [if_neg (by simp), stepped]
    cases asleep : m.state.asleep with
    | true =>
      rw [step_asleep wiring asleep]
      rfl
    | false =>
      cases edge : m.state.nmiEdge with
      | true =>
        rw [step_nmi wiring asleep edge]
        exact entered _ _
      | false =>
        have irq : m.state.irqTaken = true := by
          simpa [CPU6502State.executes, asleep, edge] using executes
        rw [step_irq wiring asleep edge irq]
        exact entered _ _

/-- The first instruction after a resume is the one last paused on, if there is such. -/
def ContinuesInPlace (s : Session) (c : Command) : Prop :=
  c = .core .step → s.fresh = true → executed s.machine = true →
    s.machine.state.pc.setWidth 32 = s.machine.bus.debug.resumeSkipAddr ∨
      s.machine.bus.debug.resumeSkipAddr = ~~~0

/-- After the first instruction no skip is left. -/
def Unspoiled (s : Session) : Prop :=
  s.fresh = false → s.machine.bus.debug.resumeSkipAddr = ~~~0

theorem executes_of_executed {m : Machine} (h : executed m = true) :
    m.state.executes = true := by
  unfold executed instruction at h
  split at h
  next executes => exact executes
  · cases h

theorem unspoiled_after (s : Session) (c : Command) (unspoiled : Unspoiled s)
    (inPlace : ContinuesInPlace s c) : Unspoiled (s.after c) := by
  intro stale
  cases c with
  | resume => cases stale
  | setPc pc => exact unspoiled stale
  | configure bps brk => exact unspoiled stale
  | core e =>
    cases e with
    | step =>
      have before : s.machine.bus.debug.resumeSkipAddr = ~~~0 ∨
          s.machine.state.executes = true ∧
            s.machine.state.pc.setWidth 32 = s.machine.bus.debug.resumeSkipAddr := by
        cases fresh : s.fresh with
        | false => exact .inl (unspoiled fresh)
        | true =>
          have ran : executed s.machine = true := by
            simpa [Session.after, fresh] using stale
          rcases inPlace rfl fresh ran with here | none
          · exact .inr ⟨executes_of_executed ran, here⟩
          · exact .inl none
      change (stepped s.machine).bus.debug.resumeSkipAddr = _
      rw [stepped_skip]
      split
      · rfl
      next elsewhere => exact before.resolve_right elsewhere
    | reset =>
      have read : ReadOnly s.machine.bus (reset s.machine).2.bus :=
        IsTrans.trans _ _ _ (ReadClosed.read8 s.machine.bus _) (ReadClosed.read8 _ _)
      change (reset s.machine).2.bus.debug.resumeSkipAddr = _
      rw [read.settings.resumeSkipAddr]
      exact unspoiled stale
    | _ => exact unspoiled stale

/-- Sessions that continue where they paused miss nothing. -/
theorem neverMissed_of_inPlace {s : Session} (unspoiled : Unspoiled s) {commands : List Command}
    (run : Guarded Session.after ContinuesInPlace s commands) : NeverMissed s commands := by
  rw [neverMissed_iff]
  refine run.mono Session.after Unspoiled unspoiled_after ?_ unspoiled
  intro s c unspoiled _ arrived
  rw [unspoiled arrived.2.2.2]
  exact (pc_ne_none _).symm

/-! ## A detour -/

/-- NOP at $0203 with a breakpoint on it, and a jump there at $0200. -/
def detour : Session where
  machine :=
    { state := { (default : CPU6502State) with sp := 0xFD, p := 0x24, pc := 0x0203 }
      bus :=
        { bus := { FlatMemoryBus.new 16 with
            data := fun addr => match addr.toNat with
              | 0x200 => 0x4C
              | 0x201 => 0x03
              | 0x202 => 0x02
              | 0x203 => 0xEA
              | _ => 0 }
          debug := { DebugContext.new with
            breakpoints := [⟨0x0203, .exec, fun _ _ => true, 0, true, 1⟩] } }
      cmos := false
      curOp := 0
      branchTarget := 0 }
  fresh := false

/-- Pause at the breakpoint, go to $0200 by hand, resume and run. -/
def detourCommands : List Command :=
  [.core .step, .setPc 0x0200, .resume, .core .step, .core .step]

/-- Resumed where it paused, the session goes on and is missed nowhere. -/
theorem neverMissed_of_inPlace_resumed :
    NeverMissed detour [.core .step, .resume, .core .step, .core .step] := by
  refine neverMissed_of_inPlace (fun _ => rfl) ⟨?_, ?_, ?_, ?_, trivial⟩
  · exact fun _ fresh => nomatch fresh
  · exact fun step => nomatch step
  · exact fun _ _ _ => .inl (by decide)
  · exact fun _ fresh => absurd fresh (by decide)

/-- The second instruction after the resume is at the breakpoint and executes. -/
theorem not_neverMissed_detour : ¬ NeverMissed detour detourCommands := by
  rintro ⟨-, -, -, -, last, -⟩
  have missed := last ⟨rfl, by decide, by decide, by decide⟩
  exact absurd missed (by decide)

end Mmemu.Guarantees.ArmedBreakpoints
