import Mmemu.Source.Cpu45gs02Frame

/-!
# MOS 45GS02: fetching from memory

The two prefix loops, of step and of disassembleOne, over bytes that both see. They stop at the
same opcode, unless the rounds of the loop run out: then step takes the last prefix byte for the
opcode, and disassembleOne the byte behind it.
-/
namespace Mmemu.Source.Cpu45gs02
open Mmemu.Source.MemoryBus
open Mmemu.Library.StateFrame

variable {ω : Type} [MachineBus ω]

/-- No instruction and no look-ahead goes farther than this. -/
def reach : ℕ := 40

/-- The bytes `code` lie in memory from `start` on, and a debugger sees them from `addr` on:
nothing that the core reads changes them. -/
def CodeAt (addr : BitVec 32) (start : BitVec 16) (code : ℕ → BitVec 8) (c : MOS45GS02 ω) : Prop :=
  ∃ holds : ω → Prop, holds c.bus ∧ (∀ w at_, holds w → holds (IBus.read8 w at_).2) ∧
    ∀ w, holds w → ∀ i < reach,
      (read8 (start + BitVec.ofNat 16 i) { c with bus := w }).1 = code i ∧
        IBus.peek8 w (addr + BitVec.ofNat 32 i) = code i

/-- Code that the core stands `i` bytes into, in one of the two prefix modes. -/
structure Standing (addr : BitVec 32) (start : BitVec 16) (code : ℕ → BitVec 8)
    (experimental : Bool) (i : ℕ) (c : MOS45GS02 ω) : Prop where
  codeAt : CodeAt addr start code c
  pc : c.state.pc = start + BitVec.ofNat 16 i
  mode : c.experimentalPrefixMode = experimental

variable {addr : BitVec 32} {start : BitVec 16} {code : ℕ → BitVec 8} {experimental : Bool}
variable {c : MOS45GS02 ω} {i : ℕ}

/-- What a debugger sees of it. -/
def Sees {ω : Type} [IBus ω] (bus : ω) (addr : BitVec 32) (code : ℕ → BitVec 8) : Prop :=
  ∀ i < reach, IBus.peek8 bus (addr + BitVec.ofNat 32 i) = code i

theorem CodeAt.sees (h : CodeAt addr start code c) : Sees c.bus addr code := by
  obtain ⟨holds, now, -, sees⟩ := h
  intro j inReach
  exact (sees c.bus now j inReach).2

theorem CodeAt.read8 (h : CodeAt addr start code c) {j : ℕ} (inReach : j < reach) :
    (Cpu45gs02.read8 (start + BitVec.ofNat 16 j) c).1 = code j := by
  obtain ⟨holds, now, -, sees⟩ := h
  exact (sees c.bus now j inReach).1

/-- What a read returns depends on the bus and on where the hypervisor's RAM is. -/
theorem read8_congr (c c' : MOS45GS02 ω) (bus : c'.bus = c.bus)
    (hypervisor : c'.state.hypervisor = c.state.hypervisor) (rom : c'.hyperRom = c.hyperRom)
    (at_ : BitVec 16) : (read8 at_ c').1 = (read8 at_ c).1 := by
  have window : c'.hyperWindow at_ = c.hyperWindow at_ := by
    simp only [MOS45GS02.hyperWindow, hypervisor, rom]
  unfold read8
  rw [window, bus]
  split <;> rfl

theorem CodeAt.congr (h : CodeAt addr start code c) {c' : MOS45GS02 ω} (bus : c'.bus = c.bus)
    (hypervisor : c'.state.hypervisor = c.state.hypervisor) (rom : c'.hyperRom = c.hyperRom) :
    CodeAt addr start code c' := by
  obtain ⟨holds, now, reads, sees⟩ := h
  refine ⟨holds, bus ▸ now, reads, fun w there j inReach => ?_⟩
  obtain ⟨read, peek⟩ := sees w there j inReach
  refine ⟨?_, peek⟩
  rw [← read]
  exact read8_congr { c with bus := w } { c' with bus := w } rfl hypervisor rom _

theorem CodeAt.after_read8 (h : CodeAt addr start code c) (at_ : BitVec 16) :
    CodeAt addr start code (Cpu45gs02.read8 at_ c).2 := by
  unfold Cpu45gs02.read8
  split
  · exact h
  · obtain ⟨holds, now, reads, sees⟩ := h
    exact ⟨holds, reads _ _ now, reads, sees⟩

theorem read8_mode (at_ : BitVec 16) (c : MOS45GS02 ω) :
    (read8 at_ c).2.experimentalPrefixMode = c.experimentalPrefixMode := by
  unfold read8
  split <;> rfl

theorem Standing.after_read8 (h : Standing addr start code experimental i c) (at_ : BitVec 16) :
    Standing addr start code experimental i (Cpu45gs02.read8 at_ c).2 :=
  ⟨h.codeAt.after_read8 at_, by rw [read8_state, h.pc], (read8_mode at_ c).trans h.mode⟩

theorem Standing.here (h : Standing addr start code experimental i c) (inReach : i < reach) :
    (Cpu45gs02.read8 c.state.pc c).1 = code i := by
  rw [h.pc]
  exact h.codeAt.read8 inReach

/-- The byte that lies `j` bytes behind PC. -/
theorem Standing.read8 (h : Standing addr start code experimental i c) {j : ℕ} (inReach : i + j < reach) :
    (Cpu45gs02.read8 (c.state.pc + BitVec.ofNat 16 j) c).1 = code (i + j) := by
  have there : c.state.pc + BitVec.ofNat 16 j = start + BitVec.ofNat 16 (i + j) := by
    rw [h.pc, BitVec.ofNat_add, BitVec.add_assoc]
  rw [there]
  exact h.codeAt.read8 inReach

/-- PC moved on by `n` bytes, and nothing else that reading depends on. -/
theorem Standing.moved (h : Standing addr start code experimental i c) {f : CPU45GS02State → CPU45GS02State}
    {n : ℕ} (pc : (f c.state).pc = c.state.pc + BitVec.ofNat 16 n)
    (hypervisor : (f c.state).hypervisor = c.state.hypervisor) :
    Standing addr start code experimental (i + n) (regs f c).2 :=
  ⟨h.codeAt.congr rfl hypervisor rfl, by
    rw [BitVec.ofNat_add, ← BitVec.add_assoc, ← h.pc]
    exact pc, h.mode⟩

theorem Standing.kept (h : Standing addr start code experimental i c) {f : CPU45GS02State → CPU45GS02State}
    (pc : (f c.state).pc = c.state.pc) (hypervisor : (f c.state).hypervisor = c.state.hypervisor) :
    Standing addr start code experimental i (regs f c).2 :=
  h.moved (n := 0) (by simpa using pc) hypervisor

theorem Standing.addCycles (h : Standing addr start code experimental i c) (n : ℕ) :
    Standing addr start code experimental i (Cpu45gs02.addCycles n c).2 := h.kept rfl rfl

theorem Standing.fetch (h : Standing addr start code experimental i c) (inReach : i < reach) :
    (Cpu45gs02.fetch c).1 = code i ∧
      Standing addr start code experimental (i + 1) (Cpu45gs02.fetch c).2 := by
  have moved : Standing addr start code experimental (i + 1) (regs (fun s => { s with pc := s.pc + 1 }) c).2 :=
    h.moved rfl rfl
  refine ⟨?_, moved.after_read8 c.state.pc⟩
  have same : (Cpu45gs02.read8 c.state.pc (regs (fun s => { s with pc := s.pc + 1 }) c).2).1 =
      (Cpu45gs02.read8 c.state.pc c).1 := read8_congr c (regs (fun s => { s with pc := s.pc + 1 }) c).2 rfl rfl rfl _
  exact same.trans (h.here inReach)

theorem Standing.read16 (h : Standing addr start code experimental i c) (inReach : i + 1 < reach) :
    (Cpu45gs02.read16 c.state.pc c).1 = code (i + 1) ++ code i := by
  have lo : (Cpu45gs02.read8 c.state.pc c).1 = code i := h.here (by omega)
  have hi := (h.after_read8 c.state.pc).read8 (j := 1) inReach
  rw [read8_state] at hi
  exact congrArg₂ (fun hi lo : BitVec 8 => hi ++ lo) hi lo

/-- A flat memory holds code at PC, unless PC is near its end. -/
theorem codeAt_flat (c : MOS45GS02 FlatMemoryBus) (rom : c.hyperRom = none)
    (room : c.state.pc.toNat + reach ≤ 2 ^ 16) :
    CodeAt (c.state.pc.setWidth 32) c.state.pc
      (fun i => c.bus.peek8 (c.state.pc.setWidth 32 + BitVec.ofNat 32 i)) c := by
  refine ⟨fun w => w = c.bus, rfl, fun w _ same => same, ?_⟩
  rintro w rfl i inReach
  have address : (c.state.pc + BitVec.ofNat 16 i).setWidth 32 =
      c.state.pc.setWidth 32 + BitVec.ofNat 32 i := by
    apply BitVec.eq_of_toNat_eq
    simp only [BitVec.toNat_setWidth, BitVec.toNat_add, BitVec.toNat_ofNat]
    have pc := c.state.pc.isLt
    unfold reach at inReach room
    omega
  have window : c.hyperWindow (c.state.pc + BitVec.ofNat 16 i) = none := by
    rw [MOS45GS02.hyperWindow, rom]
  refine ⟨?_, rfl⟩
  change (Cpu45gs02.read8 (c.state.pc + BitVec.ofNat 16 i) c).1 = _
  unfold Cpu45gs02.read8
  rw [window]
  exact congrArg c.bus.peek8 address

/-! ## One round of the prefix loop -/

inductive Prefix where
  | quad | flat
  deriving DecidableEq, Repr

def Prefix.bytes : Prefix → ℕ
  | .quad => 2
  | .flat => 1

/-- What the loop of step remembers of a prefix. -/
def Prefix.onto (f : Fetched) : Prefix → Fetched
  | .quad => { f with op := 0x42, isQuad := true }
  | .flat => { f with op := 0xEA, is32BitInd := true }

/-- Whether $42 $42 before an opcode is a prefix. -/
def consumes (experimental : Bool) (next : BitVec 8) : Bool :=
  (!experimental || supportsQuad next) && !isQuadImmediateOpcode next

/-- The prefix that stands at a place, if one does. -/
def prefixAt (experimental : Bool) (code : ℕ → BitVec 8) (i : ℕ) : Option Prefix :=
  if code i = 0x42 ∧ code (i + 1) = 0x42 ∧ consumes experimental (code (i + 2)) = true then
    some .quad
  else if code i = 0xEA ∧ is32BitIndOpcode (code (i + 1)) = true then some .flat
  else none

theorem prefixAt_eq_none
    (noQuad : ¬ (code i = 0x42 ∧ code (i + 1) = 0x42 ∧ consumes experimental (code (i + 2)) = true))
    (noFlat : ¬ (code i = 0xEA ∧ is32BitIndOpcode (code (i + 1)) = true)) :
    prefixAt experimental code i = none := by
  rw [prefixAt, if_neg noQuad, if_neg noFlat]

theorem prefixAt_flat (nop : code i = 0xEA) (pointer : is32BitIndOpcode (code (i + 1)) = true) :
    prefixAt experimental code i = some .flat := by
  have other : ¬ (0xEA : BitVec 8) = 0x42 := by decide
  rw [prefixAt, if_neg fun at_ => other (nop.symm.trans at_.1), if_pos ⟨nop, pointer⟩]

theorem Standing.shouldConsume (h : Standing addr start code experimental i c)
    (inReach : i + 1 < reach) :
    (Cpu45gs02.shouldConsume c).1 = consumes experimental (code (i + 1)) ∧
      Standing addr start code experimental i (Cpu45gs02.shouldConsume c).2 := by
  have next : (Cpu45gs02.read8 (c.state.pc + 1) c).1 = code (i + 1) := h.read8 (j := 1) inReach
  have after := h.after_read8 (c.state.pc + 1)
  have next' : (Cpu45gs02.read8 (c.state.pc + 1) (Cpu45gs02.read8 (c.state.pc + 1) c).2).1 =
      code (i + 1) := by
    have there := after.read8 (j := 1) inReach
    rw [read8_state] at there
    exact there
  change ((if c.experimentalPrefixMode then _ else _ : Exec ω Bool) c).1 = _ ∧
    Standing _ _ _ _ _ ((if c.experimentalPrefixMode then _ else _ : Exec ω Bool) c).2
  rw [h.mode]
  cases experimental with
  | true =>
    refine ⟨?_, after.after_read8 (c.state.pc + 1)⟩
    change (supportsQuad (Cpu45gs02.read8 (c.state.pc + 1) c).1 && !isQuadImmediateOpcode
      (Cpu45gs02.read8 (c.state.pc + 1) (Cpu45gs02.read8 (c.state.pc + 1) c).2).1) = _
    rw [next, next']
    rfl
  | false =>
    refine ⟨?_, after⟩
    change (true && !isQuadImmediateOpcode (Cpu45gs02.read8 (c.state.pc + 1) c).1) = _
    rw [next]
    rfl

/-- A round of step's loop takes the prefix at PC, or fetches the opcode there. -/
theorem Standing.round (h : Standing addr start code experimental i c) (inReach : i + 2 < reach)
    (rounds : ℕ) (f : Fetched) :
    match prefixAt experimental code i with
    | some p => ∃ c', fetchOpcode (rounds + 1) f c = fetchOpcode rounds (p.onto f) c' ∧
        Standing addr start code experimental (i + p.bytes) c'
    | none => ∃ c', fetchOpcode (rounds + 1) f c = ({ f with op := code i }, c') ∧
        Standing addr start code experimental (i + 1) c' := by
  obtain ⟨fetched, after⟩ := h.fetch (by omega)
  have counted := after.addCycles 1
  have next := counted.here (by omega)
  have looked := counted.after_read8 (Cpu45gs02.addCycles 1 (Cpu45gs02.fetch c).2).2.state.pc
  obtain ⟨consume, asked⟩ := looked.shouldConsume (by omega)
  have other : ¬ (0xEA : BitVec 8) = 0x42 := by decide
  by_cases quad : code i = 0x42
  · by_cases second : code (i + 1) = 0x42
    · by_cases consumed : consumes experimental (code (i + 2)) = true
      · have here : prefixAt experimental code i = some .quad := if_pos ⟨quad, second, consumed⟩
        rw [here]
        refine ⟨_, ?_, (asked.moved (n := 1) (f := fun s => { s with pc := s.pc + 1 }.updateNZ s.a)
          rfl rfl).addCycles 1⟩
        simp only [fetchOpcode, bind_apply, get_apply, fetched, next, consume, quad, second, consumed,
          if_true]
        rfl
      · have here : prefixAt experimental code i = none :=
          prefixAt_eq_none (fun at_ => consumed at_.2.2) fun at_ => other (at_.1.symm.trans quad)
        rw [here]
        refine ⟨_, ?_, asked⟩
        simp only [fetchOpcode, bind_apply, get_apply, fetched, next, consume, quad,
          second, consumed, if_true]
        rfl
    · have here : prefixAt experimental code i = none :=
        prefixAt_eq_none (fun at_ => second at_.2.1) fun at_ => other (at_.1.symm.trans quad)
      rw [here]
      refine ⟨_, ?_, looked⟩
      simp only [fetchOpcode, bind_apply, get_apply, pure_apply, fetched, next, quad, second, if_true,
        if_false]
  · by_cases nop : code i = 0xEA
    · by_cases pointer : is32BitIndOpcode (code (i + 1)) = true
      · have here : prefixAt experimental code i = some .flat := prefixAt_flat nop pointer
        rw [here]
        refine ⟨_, ?_, looked⟩
        simp only [fetchOpcode, bind_apply, get_apply, fetched, next, nop, other, pointer, if_true,
          if_false]
        rfl
      · have here : prefixAt experimental code i = none :=
          prefixAt_eq_none (fun at_ => quad at_.1) fun at_ => pointer at_.2
        rw [here]
        refine ⟨_, ?_, looked⟩
        simp only [fetchOpcode, bind_apply, get_apply, fetched, next, nop, other, pointer, if_true,
          if_false]
        rfl
    · have here : prefixAt experimental code i = none :=
        prefixAt_eq_none (fun at_ => quad at_.1) fun at_ => nop at_.1
      rw [here]
      refine ⟨_, ?_, counted⟩
      simp only [fetchOpcode, bind_apply, pure_apply, fetched, quad, nop, if_false]

/-! ## The prefixes of an instruction -/

/-- The prefixes from a place on that the loop takes, with the rounds it has. -/
def prefixes (experimental : Bool) (code : ℕ → BitVec 8) : ℕ → ℕ → List Prefix
  | 0, _ => []
  | rounds + 1, i =>
    match prefixAt experimental code i with
    | some p => p :: prefixes experimental code rounds (i + p.bytes)
    | none => []

def span (taken : List Prefix) : ℕ := (taken.map Prefix.bytes).sum

@[simp] theorem span_nil : span [] = 0 := rfl

@[simp] theorem span_cons (p : Prefix) (taken : List Prefix) :
    span (p :: taken) = p.bytes + span taken := rfl

theorem Prefix.bytes_le (p : Prefix) : p.bytes ≤ 2 := by cases p <;> decide

theorem span_prefixes_le (rounds i : ℕ) :
    span (prefixes experimental code rounds i) ≤ 2 * rounds := by
  induction rounds generalizing i with
  | zero => exact Nat.le_refl 0
  | succ rounds ih =>
    unfold prefixes
    split
    next p _ =>
      have rest := ih (i + p.bytes)
      have here := p.bytes_le
      rw [span_cons]
      omega
    · exact Nat.zero_le _

/-- The loop of step: behind the prefixes it fetches the opcode, if it has a round left. -/
theorem Standing.fetchOpcode (h : Standing addr start code experimental i c) (rounds : ℕ)
    (inReach : i + 2 * rounds < reach) (f : Fetched) :
    let taken := prefixes experimental code rounds i
    let f' := taken.foldl Prefix.onto f
    ∃ c', if taken.length < rounds then
        Cpu45gs02.fetchOpcode rounds f c = ({ f' with op := code (i + span taken) }, c') ∧
          Standing addr start code experimental (i + span taken + 1) c'
      else Cpu45gs02.fetchOpcode rounds f c = (f', c') ∧
          Standing addr start code experimental (i + span taken) c' := by
  induction rounds generalizing i c f with
  | zero => exact ⟨c, rfl, h⟩
  | succ rounds ih =>
    have round := h.round (by omega) rounds f
    unfold prefixes
    cases here : prefixAt experimental code i with
    | some p =>
      rw [here] at round
      obtain ⟨c₁, fetched, standing⟩ := round
      have bytes := p.bytes_le
      obtain ⟨c', rest⟩ := ih standing (by omega) (p.onto f)
      refine ⟨c', ?_⟩
      simpa only [fetched, List.length_cons, Nat.add_lt_add_iff_right, List.foldl_cons, span_cons,
        Nat.add_assoc] using rest
    | none =>
      rw [here] at round
      obtain ⟨c', fetched, standing⟩ := round
      exact ⟨c', by simpa using ⟨fetched, standing⟩⟩

/-- Where the rounds run out, the last prefix byte is the opcode. -/
theorem foldl_onto_op {taken : List Prefix} (some_ : taken ≠ []) (f : Fetched) :
    (taken.foldl Prefix.onto f).op = 0x42 ∨ (taken.foldl Prefix.onto f).op = 0xEA := by
  obtain ⟨before, last, rfl⟩ := List.eq_nil_or_concat' taken |>.resolve_left some_
  rw [List.foldl_append]
  cases last with
  | quad => exact .inl rfl
  | flat => exact .inr rfl

/-! ## The debugger's view -/

section Debugger
variable {ω : Type} [IBus ω] {bus : ω} {addr : BitVec 32} {code : ℕ → BitVec 8} {i : ℕ}

theorem Sees.peek8 (h : Sees bus addr code) {j : ℕ} (inReach : i + j < reach) :
    IBus.peek8 bus (addr + BitVec.ofNat 32 i + BitVec.ofNat 32 j) = code (i + j) := by
  rw [BitVec.add_assoc, ← BitVec.ofNat_add]
  exact h _ inReach

theorem Sees.here (h : Sees bus addr code) (inReach : i < reach) :
    IBus.peek8 bus (addr + BitVec.ofNat 32 i) = code i := h i inReach

theorem moved (addr : BitVec 32) (i n : ℕ) :
    addr + BitVec.ofNat 32 i + BitVec.ofNat 32 n = addr + BitVec.ofNat 32 (i + n) := by
  rw [BitVec.add_assoc, ← BitVec.ofNat_add]

theorem ahead (addr : BitVec 32) {n : ℕ} (small : n < 2 ^ 32) :
    (addr + BitVec.ofNat 32 n - addr).toNat = n := by
  rw [BitVec.add_comm, BitVec.add_sub_cancel, BitVec.toNat_ofNat, Nat.mod_eq_of_lt small]

/-- A round of disassembleOne's loop. -/
theorem Sees.round (h : Sees bus addr code) (inReach : i + 2 < reach) (rounds : ℕ) (f : Fetched) :
    skipPrefixes bus (rounds + 1) ⟨addr + BitVec.ofNat 32 i, f.isQuad, f.is32BitInd⟩ =
      match prefixAt false code i with
      | some p =>
        skipPrefixes bus rounds
          ⟨addr + BitVec.ofNat 32 (i + p.bytes), (p.onto f).isQuad, (p.onto f).is32BitInd⟩
      | none => ⟨addr + BitVec.ofNat 32 i, f.isQuad, f.is32BitInd⟩ := by
  have here : IBus.peek8 bus (addr + BitVec.ofNat 32 i + 0) = code i := h.peek8 (j := 0) (by omega)
  have next : IBus.peek8 bus (addr + BitVec.ofNat 32 i + 1) = code (i + 1) :=
    h.peek8 (j := 1) (by omega)
  have third : IBus.peek8 bus (addr + BitVec.ofNat 32 i + 2) = code (i + 2) :=
    h.peek8 (j := 2) (by omega)
  have asked : (code i == 0x42 && code (i + 1) == 0x42 && !isQuadImmediateOpcode (code (i + 2))) =
      decide (code i = 0x42 ∧ code (i + 1) = 0x42 ∧ consumes false (code (i + 2)) = true) := by
    simp [consumes, Bool.and_assoc, beq_eq_decide]
  have pointer : (code i == 0xEA && is32BitIndOpcode (code (i + 1))) =
      decide (code i = 0xEA ∧ is32BitIndOpcode (code (i + 1)) = true) := by
    simp [beq_eq_decide]
  simp only [skipPrefixes, here, next, third, asked, pointer, decide_eq_true_eq, prefixAt]
  split
  · exact congrArg (skipPrefixes bus rounds ⟨·, true, f.is32BitInd⟩) (moved addr i 2)
  · split
    · exact congrArg (skipPrefixes bus rounds ⟨·, f.isQuad, true⟩) (moved addr i 1)
    · rfl

/-- The loop of disassembleOne. -/
theorem Sees.skipPrefixes (h : Sees bus addr code) (rounds : ℕ) (inReach : i + 2 * rounds < reach)
    (f : Fetched) :
    let taken := prefixes false code rounds i
    let f' := taken.foldl Prefix.onto f
    Cpu45gs02.skipPrefixes bus rounds ⟨addr + BitVec.ofNat 32 i, f.isQuad, f.is32BitInd⟩ =
      ⟨addr + BitVec.ofNat 32 (i + span taken), f'.isQuad, f'.is32BitInd⟩ := by
  induction rounds generalizing i f with
  | zero => rfl
  | succ rounds ih =>
    rw [h.round (by omega)]
    unfold prefixes
    cases here : prefixAt false code i with
    | some p =>
      have bytes := p.bytes_le
      simpa only [List.foldl_cons, span_cons, Nat.add_assoc] using
        ih (i := i + p.bytes) (by omega) (p.onto f)
    | none => rfl

/-- The loop of prefixBytes45 takes the same prefixes, if an opcode is behind them. -/
theorem Sees.behindPrefixes45_round (h : Sees bus addr code) (inReach : i + 2 < reach)
    (rounds : ℕ) :
    (∀ p, prefixAt false code i = some p →
      behindPrefixes45 bus (rounds + 1) (addr + BitVec.ofNat 32 i) =
        behindPrefixes45 bus rounds (addr + BitVec.ofNat 32 (i + p.bytes))) ∧
    (code i ≠ 0x42 → code i ≠ 0xEA →
      behindPrefixes45 bus (rounds + 1) (addr + BitVec.ofNat 32 i) = addr + BitVec.ofNat 32 i) := by
  have here := h.here (i := i) (by omega)
  have next : IBus.peek8 bus (addr + BitVec.ofNat 32 i + 1) = code (i + 1) :=
    h.peek8 (j := 1) (by omega)
  have other : ¬ (0xEA : BitVec 8) = 0x42 := by decide
  simp only [behindPrefixes45, here, next]
  constructor
  · intro p at_
    unfold prefixAt at at_
    split at at_
    next quad =>
      cases at_
      rw [if_pos (by simp [quad.1, quad.2.1])]
      exact congrArg (behindPrefixes45 bus rounds) (moved addr i 2)
    · split at at_
      next flat =>
        cases at_
        rw [if_neg (by simp [flat.1]), if_pos (by simp [flat])]
        exact congrArg (behindPrefixes45 bus rounds) (moved addr i 1)
      · cases at_
  · intro noQuad noFlat
    rw [if_neg (by simp only [Bool.and_eq_true, beq_iff_eq, noQuad, false_and, not_false_eq_true]),
      if_neg (by simp only [Bool.and_eq_true, beq_iff_eq, noFlat, false_and, not_false_eq_true])]

/-- The loop of prefixBytes45. -/
theorem Sees.behindPrefixes45 (h : Sees bus addr code) (rounds : ℕ)
    (inReach : i + 2 * rounds < reach) :
    let taken := prefixes false code rounds i
    taken.length < rounds → code (i + span taken) ≠ 0x42 → code (i + span taken) ≠ 0xEA →
      Cpu45gs02.behindPrefixes45 bus rounds (addr + BitVec.ofNat 32 i) =
        addr + BitVec.ofNat 32 (i + span taken) := by
  induction rounds generalizing i with
  | zero => exact fun short => absurd short (Nat.lt_irrefl 0)
  | succ rounds ih =>
    obtain ⟨taking, stopping⟩ := h.behindPrefixes45_round (i := i) (by omega) rounds
    unfold prefixes
    cases here : prefixAt false code i with
    | some p =>
      have bytes := p.bytes_le
      have rest := ih (i := i + p.bytes) (by omega)
      simp only [List.length_cons, Nat.add_lt_add_iff_right, span_cons, taking p here,
        ← Nat.add_assoc]
      exact rest
    | none =>
      intro _ _ noQuad noFlat
      exact stopping noQuad noFlat

/-- It goes on, and not farther than its rounds let it. -/
theorem behindPrefixes45_between (bus : ω) (addr : BitVec 32) (rounds i : ℕ) :
    ∃ m, i ≤ m ∧ m ≤ i + 2 * rounds ∧
      behindPrefixes45 bus rounds (addr + BitVec.ofNat 32 i) = addr + BitVec.ofNat 32 m := by
  induction rounds generalizing i with
  | zero => exact ⟨i, Nat.le_refl i, Nat.le_refl i, rfl⟩
  | succ rounds ih =>
    unfold behindPrefixes45
    split
    · obtain ⟨m, from_, upTo, eq⟩ := ih (i + 2)
      rw [← moved] at eq
      exact ⟨m, by omega, by omega, eq⟩
    · split
      · obtain ⟨m, from_, upTo, eq⟩ := ih (i + 1)
        rw [← moved] at eq
        exact ⟨m, by omega, by omega, eq⟩
      · exact ⟨i, Nat.le_refl i, by omega, rfl⟩

theorem Form.bytes_le (form : Form) : form.bytes ≤ 2 := by cases form <;> decide

/-- The prefixes of the instruction at `addr`, as a debugger sees them. -/
def seen (code : ℕ → BitVec 8) : List Prefix := prefixes false code MAX_PREFIXES 0

theorem span_seen_le (code : ℕ → BitVec 8) : span (seen code) ≤ 32 := span_prefixes_le 16 0

/-- The instruction that disassembleOne prints. -/
theorem Sees.disassembleOne (h : Sees bus addr code) :
    let k := span (seen code)
    let f := (seen code).foldl Prefix.onto ⟨0, false, false⟩
    let l := listing (code k)
    Cpu45gs02.disassembleOne bus addr =
      { mnemonic := (l.name f.isQuad).toList
        operands := operandText l.form f.is32BitInd (addr + BitVec.ofNat 32 (k + 1)) (code (k + 1))
          (code (k + 2))
        bytes := k + 1 + l.form.bytes } := by
  intro k f l
  have near : k ≤ 32 := span_seen_le code
  have start : addr + BitVec.ofNat 32 0 = addr := BitVec.add_zero addr
  have skipped := h.skipPrefixes (i := 0) MAX_PREFIXES (by decide) ⟨0, false, false⟩
  simp only [start, Nat.zero_add] at skipped
  have first : addr + BitVec.ofNat 32 k + 1 = addr + BitVec.ofNat 32 (k + 1) := moved addr k 1
  have second : addr + BitVec.ofNat 32 (k + 1) + 1 = addr + BitVec.ofNat 32 (k + 2) :=
    moved addr (k + 1) 1
  have len : (addr + BitVec.ofNat 32 (k + 1) + BitVec.ofNat 32 l.form.bytes - addr).toNat =
      k + 1 + l.form.bytes := by
    have small := l.form.bytes_le
    rw [moved, ahead addr (by omega)]
  unfold Cpu45gs02.disassembleOne
  rw [skipped]
  change Disassembly.mk ((listing (IBus.peek8 bus (addr + BitVec.ofNat 32 k))).name f.isQuad).toList
    (operandText (listing (IBus.peek8 bus (addr + BitVec.ofNat 32 k))).form f.is32BitInd
      (addr + BitVec.ofNat 32 k + 1) (IBus.peek8 bus (addr + BitVec.ofNat 32 k + 1))
      (IBus.peek8 bus (addr + BitVec.ofNat 32 k + 1 + 1)))
    (addr + BitVec.ofNat 32 k + 1 +
      BitVec.ofNat 32 (listing (IBus.peek8 bus (addr + BitVec.ofNat 32 k))).form.bytes - addr).toNat = _
  rw [first, second, h.here (i := k) (by unfold reach; omega),
    h.here (i := k + 1) (by unfold reach; omega), h.here (i := k + 2) (by unfold reach; omega), len]

/-- A single opcode is as long as its operand says. -/
theorem opcodeLengths45_eq (op : BitVec 8) : opcodeLengths45 op = 1 + (listing op).form.bytes := by
  have sees : Sees (⟨0x1000, [op, 0, 0, 0]⟩ : ByteWindowBus) 0x1000 ([op, 0, 0, 0].getD · 0) := by
    intro i near
    exact congrArg ([op, 0, 0, 0].getD · 0) (ahead 0x1000 (by unfold reach at near; omega))
  have alone : seen ([op, 0, 0, 0].getD · 0) = [] := by
    have stopped : prefixAt false ([op, 0, 0, 0].getD · 0) 0 = none :=
      prefixAt_eq_none (fun at_ => absurd at_.2.1 (show ¬ (0 : BitVec 8) = 0x42 from by decide))
        fun at_ => absurd at_.2 (show ¬ is32BitIndOpcode 0 = true from by decide)
    change prefixes false _ (15 + 1) 0 = []
    rw [prefixes, stopped]
  have listed := sees.disassembleOne
  rw [alone] at listed
  rw [opcodeLengths45, listed]
  simp

/-- The fast decoder is taken where there is no prefix. -/
theorem Sees.seen_eq_nil (h : Sees bus addr code)
    (fast : ¬ ((IBus.peek8 bus addr == 0x42 || IBus.peek8 bus addr == 0xEA) &&
      prefixBytes45 bus addr != 0) = true) : seen code = [] := by
  have start : addr + BitVec.ofNat 32 0 = addr := BitVec.add_zero addr
  have here : IBus.peek8 bus addr = code 0 := by simpa using h.here (i := 0) (by decide)
  change prefixes false code (15 + 1) 0 = []
  cases at_ : prefixAt false code 0 with
  | none => rw [prefixes, at_]
  | some p =>
    have first := (h.behindPrefixes45_round (i := 0) (by decide) 15).1 p at_
    obtain ⟨m, from_, upTo, behind⟩ := behindPrefixes45_between bus addr 15 (0 + p.bytes)
    have bytes := p.bytes_le
    have some_ : 0 < p.bytes := by cases p <;> decide
    have prefixed : prefixBytes45 bus addr ≠ 0 := by
      intro none_
      have zero := congrArg BitVec.toNat none_
      rw [start] at first
      rw [prefixBytes45, first, behind, ahead addr (by omega)] at zero
      exact absurd zero (by change m ≠ 0; omega)
    have op_eq : code 0 = 0x42 ∨ code 0 = 0xEA := by
      unfold prefixAt at at_
      split at at_
      next quad => exact .inl quad.1
      · split at at_
        next flat => exact .inr flat.1
        · cases at_
    refine absurd ?_ fast
    simp only [here, Bool.and_eq_true, Bool.or_eq_true, beq_iff_eq, bne_iff_ne]
    exact ⟨op_eq, prefixed⟩

/-- The entry of the debugger is as long as the text's instruction. -/
theorem Sees.decodeEntry_bytes (h : Sees bus addr code) :
    (decodeEntry bus addr).bytes = (Cpu45gs02.disassembleOne bus addr).bytes := by
  have here : IBus.peek8 bus addr = code 0 := by simpa using h.here (i := 0) (by decide)
  unfold decodeEntry
  extract_lets op
  split
  · rfl
  next fast =>
    have listed := h.disassembleOne
    rw [h.seen_eq_nil fast] at listed
    have op_eq : op = code (span []) := here
    rw [listed, ← op_eq]
    exact (opcodeLengths45_eq op).trans (by simp)

end Debugger

/-- The experimental mode stops at an opcode behind the prefixes that the default mode takes. -/
theorem prefixes_default {rounds i : ℕ} :
    let taken := prefixes experimental code rounds i
    taken.length < rounds → code (i + span taken) ≠ 0x42 → code (i + span taken) ≠ 0xEA →
      prefixes false code rounds i = taken := by
  induction rounds generalizing i with
  | zero => exact fun short => absurd short (Nat.lt_irrefl 0)
  | succ rounds ih =>
    unfold prefixes
    cases here : prefixAt experimental code i with
    | some p =>
      have too : prefixAt false code i = some p := by
        unfold prefixAt at here ⊢
        split at here
        next quad =>
          have consumed : consumes false (code (i + 2)) = true := by
            have := quad.2.2
            simp only [consumes, Bool.and_eq_true] at this ⊢
            exact ⟨rfl, this.2⟩
          rw [if_pos ⟨quad.1, quad.2.1, consumed⟩]
          exact here
        next noQuad =>
          split at here
          next flat =>
            have other : ¬ (0xEA : BitVec 8) = 0x42 := by decide
            rw [if_neg fun at_ => other (flat.1.symm.trans at_.1), if_pos flat]
            exact here
          · cases here
      rw [too]
      simp only [List.length_cons, Nat.add_lt_add_iff_right, span_cons, ← Nat.add_assoc]
      intro short noQuad noFlat
      exact congrArg (p :: ·) (ih (i := i + p.bytes) short noQuad noFlat)
    | none =>
      intro _ _ noQuad noFlat
      have stopped : prefixAt false code i = none :=
        prefixAt_eq_none (fun at_ => noQuad at_.1) fun at_ => noFlat at_.1
      rw [stopped]

/-! ## The instruction at PC -/

/-- The instruction that the loop of step comes to. -/
theorem CodeAt.fetches (h : CodeAt addr c.state.pc code c) :
    let taken := prefixes c.experimentalPrefixMode code MAX_PREFIXES 0
    let f := taken.foldl Prefix.onto ⟨0, false, false⟩
    let c' := (fetchOpcode MAX_PREFIXES ⟨0, false, false⟩ c).2
    if taken.length < MAX_PREFIXES then
      c.fetched = { f with op := code (span taken) } ∧
        Standing addr c.state.pc code c.experimentalPrefixMode (span taken + 1) c'
    else c.fetched = f ∧ Standing addr c.state.pc code c.experimentalPrefixMode (span taken) c' := by
  have standing : Standing addr c.state.pc code c.experimentalPrefixMode 0 c :=
    ⟨h, (BitVec.add_zero _).symm, rfl⟩
  obtain ⟨c', fetched⟩ := standing.fetchOpcode MAX_PREFIXES (by decide) ⟨0, false, false⟩
  simp only [Nat.zero_add] at fetched
  intro taken f after
  split
  next short =>
    rw [if_pos short] at fetched
    obtain ⟨eq, behind⟩ := fetched
    have core : after = c' := congrArg Prod.snd eq
    exact ⟨congrArg Prod.fst eq, core ▸ behind⟩
  next full =>
    rw [if_neg full] at fetched
    obtain ⟨eq, behind⟩ := fetched
    have core : after = c' := congrArg Prod.snd eq
    exact ⟨congrArg Prod.fst eq, core ▸ behind⟩

/-- In the default mode the prefixes are those that a debugger sees. -/
theorem CodeAt.fetches_default (h : CodeAt addr c.state.pc code c)
    (mode : c.experimentalPrefixMode = false) :
    let f := (seen code).foldl Prefix.onto ⟨0, false, false⟩
    let c' := (fetchOpcode MAX_PREFIXES ⟨0, false, false⟩ c).2
    if (seen code).length < MAX_PREFIXES then
      c.fetched = { f with op := code (span (seen code)) } ∧
        Standing addr c.state.pc code false (span (seen code) + 1) c'
    else c.fetched = f ∧ Standing addr c.state.pc code false (span (seen code)) c' := by
  have fetches := h.fetches
  rw [mode] at fetches
  exact fetches

/-- In either mode: an opcode that is no prefix byte is where a debugger sees it. -/
theorem CodeAt.fetched_seen (h : CodeAt addr c.state.pc code c) (noQuad : c.fetched.op ≠ 0x42)
    (noFlat : c.fetched.op ≠ 0xEA) :
    (seen code).length < MAX_PREFIXES ∧ c.fetched.op = code (span (seen code)) ∧
      Standing addr c.state.pc code c.experimentalPrefixMode (span (seen code) + 1)
        (fetchOpcode MAX_PREFIXES ⟨0, false, false⟩ c).2 := by
  have fetches := h.fetches
  extract_lets taken f c' at fetches
  split at fetches
  next short =>
    obtain ⟨fetched, standing⟩ := fetches
    have op : c.fetched.op = code (span taken) := congrArg Fetched.op fetched
    rw [op] at noQuad noFlat
    have same : seen code = taken := by
      refine prefixes_default (i := 0) short ?_ ?_
      · rwa [Nat.zero_add]
      · rwa [Nat.zero_add]
    rw [same]
    exact ⟨short, op, standing⟩
  next full =>
    have some_ : taken ≠ [] := by
      intro none_
      exact full (by rw [none_]; decide)
    rw [fetches.1] at noQuad noFlat
    exact absurd (foldl_onto_op some_ ⟨0, false, false⟩) (not_or.mpr ⟨noQuad, noFlat⟩)

end Mmemu.Source.Cpu45gs02
