import Mmemu.Source.Via6522

/-!
# VIA 6522: the interrupt line is the summary of the enabled flags

Whatever sequence of accesses, line changes, ticks and resets a chip goes
through, its flag register's bit 7 says whether an enabled flag is set, and the
line stands where that bit says.
-/
namespace Mmemu.Guarantees.ViaIrqLine
open Mmemu.Source.Via6522

/-- The chip as constructed, with a line attached to its interrupt output. -/
def wired (baseAddr : BitVec 32) (lines : Attached) : Via :=
  apply (init baseAddr lines) (.setIrqLine (some false))

/-- The summary, the level the chip remembers and the level of the line agree. -/
structure Follows (i : Irq) : Prop where
  settled : i.Settled
  driven : i.Driven
  attached : i.irqLine.isSome = true

theorem wired_follows (baseAddr : BitVec 32) (lines : Attached) :
    Follows (wired baseAddr lines).irq := by
  refine ⟨apply_settled _ (reset_settled _), ?_, rfl⟩
  intro level line
  exact (Option.some.inj line).symm

theorem Follows.moves {i j : Irq} (h : Follows i) (m : i.Moves j) : Follows j :=
  ⟨h.settled.moves m, h.driven.moves m, m.attached.trans h.attached⟩

theorem reset_follows {s : Via} (h : Follows s.irq) : Follows (reset s).irq := by
  refine ⟨reset_settled s, ?_, ?_⟩
  · intro level line
    obtain ⟨_, _, low⟩ := Option.map_eq_some_iff.mp line
    exact low.symm
  · simpa [reset] using h.attached

/-- Every operation but attaching another line. -/
theorem apply_follows {s : Via} (op : Op) (kept : ∀ line, op ≠ .setIrqLine line)
    (h : Follows s.irq) : Follows (apply s op).irq := by
  cases op with
  | reset => exact reset_follows h
  | read addr pinsA pinsB => exact h.moves (readReg_moves s addr false pinsA pinsB)
  | write addr val => exact h.moves (ioWrite_moves s addr val)
  | tick n => exact h.moves (tick_moves s n)
  | conduitCA1 level => exact h.moves (setCA1_moves s level)
  | conduitCB1 level => exact h.moves (setCB1_moves s level)
  | setIrqLine line => exact absurd rfl (kept line)
  | conduitCA2 | conduitCB2 | externalLines | setLines | portAPins | setBaseAddr => exact h

theorem run_follows (baseAddr : BitVec 32) (lines : Attached) (ops : List Op)
    (kept : ∀ op ∈ ops, ∀ line, op ≠ .setIrqLine line) :
    Follows (ops.foldl apply (wired baseAddr lines)).irq :=
  List.foldlRecOn (motive := fun s => Follows s.irq) ops apply (wired_follows baseAddr lines)
    fun _ hs op mem => apply_follows op (kept op mem) hs

/-! ## The bits -/

theorem summary_bit : ∀ x : BitVec 8, x &&& 0x80 ≠ 0#8 ↔ x.getLsbD 7 = true := by decide

theorem low_bits : ∀ x : BitVec 8, x &&& 0x7F ≠ 0#8 ↔ ∃ n < 7, x.getLsbD n = true := by
  decide

theorem irqAsserted_iff (ifr ier : BitVec 8) :
    irqAsserted ifr ier = true ↔ ∃ n < 7, ifr.getLsbD n = true ∧ ier.getLsbD n = true := by
  simp only [irqAsserted, decide_eq_true_eq, low_bits, BitVec.getLsbD_and, Bool.and_eq_true]

theorem Follows.line {i : Irq} (h : Follows i) :
    (i.ifr.getLsbD 7 = true ↔ ∃ n < 7, i.ifr.getLsbD n = true ∧ i.ier.getLsbD n = true) ∧
      i.irqLine = some (i.ifr.getLsbD 7) := by
  have summary : i.ifr.getLsbD 7 = irqAsserted i.ifr i.ier := by
    rw [Bool.eq_iff_iff, ← summary_bit]
    exact h.settled.summary
  refine ⟨by rw [summary, irqAsserted_iff], ?_⟩
  obtain ⟨level, line⟩ := Option.isSome_iff_exists.mp h.attached
  rw [line, h.driven level line, h.settled.driven, summary]

/-- For every run of a chip whose line stays attached. -/
theorem irq_line_follows (baseAddr : BitVec 32) (lines : Attached) (ops : List Op)
    (kept : ∀ op ∈ ops, ∀ line, op ≠ .setIrqLine line) :
    let i := (ops.foldl apply (wired baseAddr lines)).irq
    (i.ifr.getLsbD 7 = true ↔ ∃ n < 7, i.ifr.getLsbD n = true ∧ i.ier.getLsbD n = true) ∧
      i.irqLine = some (i.ifr.getLsbD 7) :=
  (run_follows baseAddr lines ops kept).line

/-- CA1 is enabled and falls: bit 7 is set and the line is driven. -/
theorem irq_line_follows_ca1 :
    let i := ([Op.write 0x900E 0x82, .conduitCA1 false].foldl apply (wired 0x9000 .conduit)).irq
    (i.ifr.getLsbD 7 = true ↔ ∃ n < 7, i.ifr.getLsbD n = true ∧ i.ier.getLsbD n = true) ∧
      i.irqLine = some (i.ifr.getLsbD 7) :=
  irq_line_follows 0x9000 .conduit [Op.write 0x900E 0x82, .conduitCA1 false] (by simp)

end Mmemu.Guarantees.ViaIrqLine

/-!
# VIA 6522: when two ticks count as one

`tick` takes each counter down by the whole batch of cycles. A counter that runs
out inside a batch drops what is left of it: Timer 1 in free-run mode restarts at
its latch, a one-shot timer stops where the batch ends. Flags, interrupt line and
timer activity depend only on the total; the counters only when no cycles of the
second batch come after such an underflow, or Timer 1 runs out in both.
-/
namespace Mmemu.Guarantees.ViaTimeSlicing
open Mmemu.Source.Via6522

/-! ## Sampling the lines -/

/-- Every line `tick` looks at has the level it was last seen with. -/
structure LinesSampled (s : Via) : Prop where
  ca1 : ∀ lvl ∈ s.ca1.level, s.ca1.prev = lvl
  ca2 : s.pcr &&& 0x08 = 0#8 → ∀ lvl ∈ s.ca2.level, s.ca2.prev = lvl
  cb1 : ∀ lvl ∈ s.cb1.level, s.cb1.prev = lvl
  cb2 : s.pcr &&& 0x80 = 0#8 → ∀ lvl ∈ s.cb2.level, s.cb2.prev = lvl

@[simp] theorem activeEdge_same (rising level : Bool) : activeEdge rising level level = false := by
  cases rising <;> cases level <;> rfl

theorem sampleCA1_eq {s : Via} (h : ∀ lvl ∈ s.ca1.level, s.ca1.prev = lvl) : sampleCA1 s = s := by
  unfold sampleCA1
  split
  · rfl
  · rename_i lvl seen
    have same : s.ca1.prev = lvl := h lvl seen
    simp [← same]

theorem sampleCA2_eq {s : Via} (h : s.pcr &&& 0x08 = 0#8 → ∀ lvl ∈ s.ca2.level, s.ca2.prev = lvl) :
    sampleCA2 s = s := by
  unfold sampleCA2
  split
  · rfl
  · rename_i input
    split
    · rfl
    · rename_i lvl seen
      have same : s.ca2.prev = lvl := h (by simpa using input) lvl seen
      simp [← same]

theorem sampleCB1_eq {s : Via} (h : ∀ lvl ∈ s.cb1.level, s.cb1.prev = lvl) : sampleCB1 s = s := by
  unfold sampleCB1
  split
  · rfl
  · rename_i lvl seen
    have same : s.cb1.prev = lvl := h lvl seen
    simp [← same]

theorem sampleCB2_eq {s : Via} (h : s.pcr &&& 0x80 = 0#8 → ∀ lvl ∈ s.cb2.level, s.cb2.prev = lvl) :
    sampleCB2 s = s := by
  unfold sampleCB2
  split
  · rfl
  · rename_i input
    split
    · rfl
    · rename_i lvl seen
      have same : s.cb2.prev = lvl := h (by simpa using input) lvl seen
      simp [← same]

theorem LinesSampled.sampleLines {s : Via} (h : LinesSampled s) : sampleLines s = s := by
  rw [Source.Via6522.sampleLines, sampleCA1_eq h.ca1, sampleCA2_eq h.ca2, sampleCB1_eq h.cb1,
    sampleCB2_eq h.cb2]

/-- A pin whose line has just been looked at. -/
def sampled (p : Pin) : Pin :=
  match p.level with
  | none => p
  | some lvl => { p with prev := lvl }

theorem sampled_prev (p : Pin) : ∀ lvl ∈ (sampled p).level, (sampled p).prev = lvl := by
  rcases p with ⟨conduit, line, prev⟩
  intro lvl seen
  cases line with
  | none => cases seen
  | conduit => simpa [sampled, Pin.level] using seen
  | external level => simpa [sampled, Pin.level] using seen

/-- An active edge of CA1 may release CA2, but only while CA2 is an output. -/
theorem ca1Edge_spec (s : Via) :
    ∃ ca2 irq, ca1Edge s = { s with ca2 := ca2, irq := irq } ∧
      (s.pcr &&& 0x08 = 0#8 → ca2 = s.ca2) := by
  have output : s.pcr &&& 0x0E = 0x08#8 → s.pcr &&& 0x08 ≠ 0#8 := by
    generalize s.pcr = pcr
    revert pcr
    decide
  unfold ca1Edge
  dsimp only
  split
  · rename_i mode
    exact ⟨s.ca2.drive true, _, rfl, fun input => absurd input (output mode)⟩
  · exact ⟨s.ca2, _, rfl, fun _ => rfl⟩

theorem sampleCA1_spec (s : Via) :
    ∃ ca2 irq, sampleCA1 s = { s with ca1 := sampled s.ca1, ca2 := ca2, irq := irq } ∧
      (s.pcr &&& 0x08 = 0#8 → ca2 = s.ca2) := by
  unfold sampleCA1 sampled
  cases s.ca1.level with
  | none => exact ⟨s.ca2, s.irq, rfl, fun _ => rfl⟩
  | some lvl =>
    dsimp only
    split
    · obtain ⟨ca2, irq, spec, keep⟩ := ca1Edge_spec s
      exact ⟨ca2, irq, by rw [spec], keep⟩
    · exact ⟨s.ca2, s.irq, rfl, fun _ => rfl⟩

theorem sampleCA2_spec (s : Via) :
    ∃ ca2 irq, sampleCA2 s = { s with ca2 := ca2, irq := irq } ∧
      (s.pcr &&& 0x08 = 0#8 → ca2 = sampled s.ca2) := by
  unfold sampleCA2 sampled
  split
  · rename_i output
    exact ⟨s.ca2, s.irq, rfl, fun input => absurd input output⟩
  · cases s.ca2.level with
    | none => exact ⟨s.ca2, s.irq, rfl, fun _ => rfl⟩
    | some lvl => exact ⟨{ s.ca2 with prev := lvl }, _, rfl, fun _ => rfl⟩

theorem cb1Edge_spec (s : Via) :
    ∃ cb2 irq, cb1Edge s = { s with cb2 := cb2, irq := irq } ∧
      (s.pcr &&& 0x80 = 0#8 → cb2 = s.cb2) := by
  have output : s.pcr &&& 0xE0 = 0x80#8 → s.pcr &&& 0x80 ≠ 0#8 := by
    generalize s.pcr = pcr
    revert pcr
    decide
  unfold cb1Edge
  dsimp only
  split
  · rename_i mode
    exact ⟨s.cb2.drive true, _, rfl, fun input => absurd input (output mode)⟩
  · exact ⟨s.cb2, _, rfl, fun _ => rfl⟩

theorem sampleCB1_spec (s : Via) :
    ∃ cb2 irq, sampleCB1 s = { s with cb1 := sampled s.cb1, cb2 := cb2, irq := irq } ∧
      (s.pcr &&& 0x80 = 0#8 → cb2 = s.cb2) := by
  unfold sampleCB1 sampled
  cases s.cb1.level with
  | none => exact ⟨s.cb2, s.irq, rfl, fun _ => rfl⟩
  | some lvl =>
    dsimp only
    split
    · obtain ⟨cb2, irq, spec, keep⟩ := cb1Edge_spec s
      exact ⟨cb2, irq, by rw [spec], keep⟩
    · exact ⟨s.cb2, s.irq, rfl, fun _ => rfl⟩

theorem sampleCB2_spec (s : Via) :
    ∃ cb2 irq, sampleCB2 s = { s with cb2 := cb2, irq := irq } ∧
      (s.pcr &&& 0x80 = 0#8 → cb2 = sampled s.cb2) := by
  unfold sampleCB2 sampled
  split
  · rename_i output
    exact ⟨s.cb2, s.irq, rfl, fun input => absurd input output⟩
  · cases s.cb2.level with
    | none => exact ⟨s.cb2, s.irq, rfl, fun _ => rfl⟩
    | some lvl => exact ⟨{ s.cb2 with prev := lvl }, _, rfl, fun _ => rfl⟩

/-- Before the timers, a tick touches the control lines and the interrupt alone,
and leaves every line it looks at sampled. -/
theorem sampleLines_spec (s : Via) :
    ∃ ca2 cb2 irq,
      sampleLines s =
        { s with ca1 := sampled s.ca1, ca2 := ca2, cb1 := sampled s.cb1, cb2 := cb2, irq := irq } ∧
      (s.pcr &&& 0x08 = 0#8 → ca2 = sampled s.ca2) ∧
      (s.pcr &&& 0x80 = 0#8 → cb2 = sampled s.cb2) := by
  obtain ⟨ca2, _, first, keepA⟩ := sampleCA1_spec s
  obtain ⟨ca2', _, second, seenA⟩ := sampleCA2_spec (sampleCA1 s)
  obtain ⟨cb2, _, third, keepB⟩ := sampleCB1_spec (sampleCA2 (sampleCA1 s))
  obtain ⟨cb2', irq, fourth, seenB⟩ := sampleCB2_spec (sampleCB1 (sampleCA2 (sampleCA1 s)))
  refine ⟨ca2', cb2', irq, ?_, ?_, ?_⟩
  · rw [sampleLines, fourth, third, second, first]
  · intro input
    rw [seenA (by rw [first]; exact input), first]
    exact congrArg sampled (keepA input)
  · intro input
    have pcr : (sampleCA2 (sampleCA1 s)).pcr &&& 0x80 = 0#8 := by
      rw [second, first]
      exact input
    have kept : cb2 = s.cb2 := by
      rw [keepB pcr, second, first]
    rw [seenB (by rw [third]; exact pcr), third]
    exact congrArg sampled kept

theorem sampleLines_sampled (s : Via) : LinesSampled (sampleLines s) := by
  obtain ⟨ca2, cb2, irq, spec, inputA, inputB⟩ := sampleLines_spec s
  rw [spec]
  refine ⟨sampled_prev s.ca1, ?_, sampled_prev s.cb1, ?_⟩
  · intro input
    rw [inputA input]
    exact sampled_prev s.ca2
  · intro input
    rw [inputB input]
    exact sampled_prev s.cb2

/-! ## A tick in parts -/

/-- Timer 1 over a batch of cycles, and whether it runs out in it. -/
def T1.after (freeRun : Bool) (t : T1) (n : ℕ) : T1 :=
  if !t.active then t
  else if t.counter < BitVec.ofNat 16 n then
    if freeRun then { t with counter := t.latch }
    else { t with counter := t.counter - BitVec.ofNat 16 n, active := false }
  else { t with counter := t.counter - BitVec.ofNat 16 n }

def T1.flag (t : T1) (n : ℕ) : BitVec 8 :=
  if t.active && decide (t.counter < BitVec.ofNat 16 n) then 0x40 else 0

/-- Timer 2 over a batch of cycles, and whether it runs out in it. -/
def T2.after (t : T2) (n : ℕ) : T2 :=
  if !t.active then t
  else { counter := t.counter - BitVec.ofNat 16 n
         active := decide (¬ t.counter < BitVec.ofNat 16 n) }

def T2.flag (t : T2) (n : ℕ) : BitVec 8 :=
  if t.active && decide (t.counter < BitVec.ofNat 16 n) then 0x20 else 0

def freeRun (s : Via) : Bool := decide (s.acr &&& 0x40 ≠ 0#8)

theorem tickT1_eq {s : Via} (n : ℕ) (h : s.irq.Settled) :
    tickT1 s n =
      { s with t1 := T1.after (freeRun s) s.t1 n, irq := s.irq.raise (T1.flag s.t1 n) } := by
  have none : s.irq.raise 0#8 = s.irq := Irq.raise_zero h
  unfold tickT1 T1.after T1.flag freeRun
  by_cases active : s.t1.active = true
  · by_cases out : s.t1.counter < BitVec.ofNat 16 n
    · by_cases mode : s.acr &&& 0x40#8 = 0#8 <;> simp [active, out, mode]
    · simp [active, out, none]
  · simp [active, none]

theorem tickT2_eq {s : Via} (n : ℕ) (h : s.irq.Settled) :
    tickT2 s n = { s with t2 := T2.after s.t2 n, irq := s.irq.raise (T2.flag s.t2 n) } := by
  have none : s.irq.raise 0#8 = s.irq := Irq.raise_zero h
  unfold tickT2 T2.after T2.flag
  by_cases active : s.t2.active = true
  · by_cases out : s.t2.counter < BitVec.ofNat 16 n
    · simp [active, out]
    · simp [active, out, none]
  · simp [active, none]

/-- With the interrupt outputs up to date a tick samples the lines, moves the
timers and raises their flags together. -/
theorem tick_eq {s : Via} (n : ℕ) (h : s.irq.Settled) :
    tick s n =
      { sampleLines s with
        t1 := T1.after (freeRun s) s.t1 n
        t2 := T2.after s.t2 n
        irq := (sampleLines s).irq.raise (T1.flag s.t1 n ||| T2.flag s.t2 n) } := by
  have sampledOk : (sampleLines s).irq.Settled := h.moves (sampleLines_moves s)
  obtain ⟨ca2, cb2, irq, spec, -⟩ := sampleLines_spec s
  have first := tickT1_eq n sampledOk
  have second := tickT2_eq n (sampledOk.moves (tickT1_moves _ n))
  rw [tick, second, first, ← Irq.raise_raise sampledOk, spec]
  rfl

/-! ## Adding batches -/

theorem lt_ofNat {c : BitVec 16} {n : ℕ} (hn : n < 65536) : c < BitVec.ofNat 16 n ↔ c.toNat < n := by
  simp only [BitVec.lt_def, BitVec.toNat_ofNat, Nat.mod_eq_of_lt hn]

theorem toNat_sub_ofNat {c : BitVec 16} {a : ℕ} (h : a ≤ c.toNat) :
    (c - BitVec.ofNat 16 a).toNat = c.toNat - a := by
  have bound := c.isLt
  have fits : a % 2 ^ 16 = a := Nat.mod_eq_of_lt (by omega)
  rw [BitVec.toNat_sub, BitVec.toNat_ofNat, fits]
  omega

/-- A counter that lasts through the first batch runs out in the second exactly
when it runs out in their sum. -/
theorem sub_lt_ofNat {c : BitVec 16} {a b : ℕ} (lasts : ¬ c < BitVec.ofNat 16 a)
    (h : a + b < 65536) : c - BitVec.ofNat 16 a < BitVec.ofNat 16 b ↔ c < BitVec.ofNat 16 (a + b) := by
  rw [lt_ofNat (by omega)] at lasts
  rw [lt_ofNat (by omega), lt_ofNat h, toNat_sub_ofNat (by omega)]
  omega

theorem lt_ofNat_add {c : BitVec 16} {a b : ℕ} (out : c < BitVec.ofNat 16 a) (h : a + b < 65536) :
    c < BitVec.ofNat 16 (a + b) := by
  rw [lt_ofNat (by omega)] at out ⊢
  omega

theorem sub_sub_ofNat (c : BitVec 16) (a b : ℕ) :
    c - BitVec.ofNat 16 a - BitVec.ofNat 16 b = c - BitVec.ofNat 16 (a + b) := by
  rw [BitVec.ofNat_add]
  grind

theorem sub_ofNat_eq_self {c : BitVec 16} {b : ℕ} (hb : b < 65536) :
    c - BitVec.ofNat 16 b = c ↔ b = 0 := by
  have bound := c.isLt
  have fits : b % 2 ^ 16 = b := Nat.mod_eq_of_lt hb
  rw [← BitVec.toNat_inj, BitVec.toNat_sub, BitVec.toNat_ofNat, fits]
  omega

theorem T1.flag_add (free : Bool) (t : T1) {a b : ℕ} (h : a + b < 65536) :
    T1.flag t a ||| T1.flag (T1.after free t a) b = T1.flag t (a + b) := by
  unfold T1.flag T1.after
  by_cases active : t.active = true
  · by_cases out : t.counter < BitVec.ofNat 16 a
    · have total := lt_ofNat_add out h
      simp only [active, out, total, decide_true, Bool.and_self, if_true, Bool.not_true,
        Bool.false_eq_true, if_false]
      -- the flag is already up, whatever the second batch does
      split <;> split <;> rfl
    · simp [active, out, sub_lt_ofNat out h]
  · simp [active]

theorem T2.flag_add (t : T2) {a b : ℕ} (h : a + b < 65536) :
    T2.flag t a ||| T2.flag (T2.after t a) b = T2.flag t (a + b) := by
  unfold T2.flag T2.after
  by_cases active : t.active = true
  · by_cases out : t.counter < BitVec.ofNat 16 a
    · simp [active, out, lt_ofNat_add out h]
    · simp [active, out, sub_lt_ofNat out h]
  · simp [active]

theorem T1.active_add (free : Bool) (t : T1) {a b : ℕ} (h : a + b < 65536) :
    (T1.after free (T1.after free t a) b).active = (T1.after free t (a + b)).active := by
  unfold T1.after
  by_cases active : t.active = true
  · by_cases out : t.counter < BitVec.ofNat 16 a
    · have total := lt_ofNat_add out h
      cases free
      · simp [active, out, total]
      · simp only [active, out, total, Bool.not_true, Bool.false_eq_true, if_false, if_true]
        split <;> rfl
    · have total := sub_lt_ofNat out h
      cases free <;> simp only [active, out, total, Bool.not_true, Bool.false_eq_true, if_false]
      all_goals split <;> rfl
  · simp [active]

theorem T2.active_add (t : T2) {a b : ℕ} (h : a + b < 65536) :
    (T2.after (T2.after t a) b).active = (T2.after t (a + b)).active := by
  unfold T2.after
  by_cases active : t.active = true
  · by_cases out : t.counter < BitVec.ofNat 16 a
    · simp [active, out, lt_ofNat_add out h]
    · simp [active, out, sub_lt_ofNat out h]
  · simp [active]

/-- Timer 1 may be sliced here: it lasts through the first batch, or the second
is empty, or in free-run mode it runs out in the second again. -/
def T1.SlicesAt (free : Bool) (t : T1) (a b : ℕ) : Prop :=
  a ≤ t.counter.toNat ∨ b = 0 ∨ (free = true ∧ t.latch.toNat < b)

/-- Timer 2 may be sliced here. -/
def T2.SlicesAt (t : T2) (a b : ℕ) : Prop := a ≤ t.counter.toNat ∨ b = 0

theorem T1.counter_add_iff (free : Bool) (t : T1) {a b : ℕ} (active : t.active = true)
    (h : a + b < 65536) :
    (T1.after free (T1.after free t a) b).counter = (T1.after free t (a + b)).counter ↔
      T1.SlicesAt free t a b := by
  unfold T1.after T1.SlicesAt
  by_cases out : t.counter < BitVec.ofNat 16 a
  · have total := lt_ofNat_add out h
    have runsOut : ¬ a ≤ t.counter.toNat := by
      rw [lt_ofNat (by omega)] at out
      omega
    cases free with
    | false =>
      have apart := sub_sub_ofNat t.counter a b
      have same := sub_ofNat_eq_self (c := t.counter - BitVec.ofNat 16 a) (b := b) (by omega)
      rw [apart] at same
      simp only [active, out, total, runsOut, Bool.not_true, Bool.not_false, Bool.false_eq_true,
        if_false, if_true, false_and, or_false, false_or]
      exact eq_comm.trans same
    | true =>
      simp only [active, out, total, runsOut, Bool.not_true, Bool.false_eq_true, if_false, if_true,
        true_and, false_or]
      by_cases again : t.latch < BitVec.ofNat 16 b
      · simp [again, (lt_ofNat (by omega)).mp again]
      · have lasts : ¬ t.latch.toNat < b := fun lt => again ((lt_ofNat (by omega)).mpr lt)
        simp only [again, lasts, if_false, or_false]
        exact sub_ofNat_eq_self (by omega)
  · have lasts : a ≤ t.counter.toNat := by
      rw [lt_ofNat (by omega)] at out
      omega
    have total := sub_lt_ofNat out h
    simp only [active, out, total, lasts, Bool.not_true, Bool.false_eq_true, if_false, true_or,
      iff_true]
    split
    · cases free
      · simp [sub_sub_ofNat]
      · rfl
    · exact sub_sub_ofNat _ _ _

theorem T2.counter_add_iff (t : T2) {a b : ℕ} (active : t.active = true) (h : a + b < 65536) :
    (T2.after (T2.after t a) b).counter = (T2.after t (a + b)).counter ↔ T2.SlicesAt t a b := by
  unfold T2.after T2.SlicesAt
  by_cases out : t.counter < BitVec.ofNat 16 a
  · have runsOut : ¬ a ≤ t.counter.toNat := by
      rw [lt_ofNat (by omega)] at out
      omega
    have apart := sub_sub_ofNat t.counter a b
    have same := sub_ofNat_eq_self (c := t.counter - BitVec.ofNat 16 a) (b := b) (by omega)
    rw [apart] at same
    simp only [active, out, runsOut, Bool.not_true, Bool.false_eq_true, if_false, not_true,
      decide_false, Bool.not_false, if_true, false_or]
    exact eq_comm.trans same
  · have lasts : a ≤ t.counter.toNat := by
      rw [lt_ofNat (by omega)] at out
      omega
    simp [active, out, lasts, sub_sub_ofNat]

/-! ## Two ticks against one -/

/-- What slicing must not change: both timers, the flags and the line. -/
structure SameTiming (s s' : Via) : Prop where
  t1Counter : s.t1.counter = s'.t1.counter
  t1Active : s.t1.active = s'.t1.active
  t2Counter : s.t2.counter = s'.t2.counter
  t2Active : s.t2.active = s'.t2.active
  irq : s.irq = s'.irq

theorem tick_tick_eq {s : Via} (a b : ℕ) (h : s.irq.Settled) (hab : a + b < 65536) :
    tick (tick s a) b =
      { tick s (a + b) with
        t1 := T1.after (freeRun s) (T1.after (freeRun s) s.t1 a) b
        t2 := T2.after (T2.after s.t2 a) b } := by
  have first := tick_eq a h
  have once := tick_eq (a + b) h
  have sampledOk : (sampleLines s).irq.Settled := h.moves (sampleLines_moves s)
  have afterOk : (tick s a).irq.Settled := by
    rw [first]
    exact Irq.raise_settled _ _
  have lines : LinesSampled (tick s a) := by
    have seen := sampleLines_sampled s
    rw [first]
    exact ⟨seen.ca1, seen.ca2, seen.cb1, seen.cb2⟩
  have mode : freeRun (tick s a) = freeRun s := by
    obtain ⟨_, _, _, spec, -⟩ := sampleLines_spec s
    rw [first, spec]
    rfl
  have flags : T1.flag s.t1 a ||| T2.flag s.t2 a ||| (T1.flag (tick s a).t1 b |||
      T2.flag (tick s a).t2 b) = T1.flag s.t1 (a + b) ||| T2.flag s.t2 (a + b) := by
    rw [← T1.flag_add (freeRun s) s.t1 hab, ← T2.flag_add s.t2 hab, first]
    ac_rfl
  rw [tick_eq b afterOk, lines.sampleLines, mode, once]
  simp only [first] at flags ⊢
  rw [Irq.raise_raise sampledOk, flags]

/-- Two ticks are one tick of the sum exactly when both timers may be sliced
there. -/
theorem tick_tick_same_iff (s : Via) (a b : ℕ) (hs : Reachable s) (t1 : s.t1.active = true)
    (t2 : s.t2.active = true) (hab : a + b < 65536) :
    SameTiming (tick (tick s a) b) (tick s (a + b)) ↔
      T1.SlicesAt (freeRun s) s.t1 a b ∧ T2.SlicesAt s.t2 a b := by
  have settled := Reachable.settled hs
  have once := tick_eq (a + b) settled
  have count1 := T1.counter_add_iff (freeRun s) s.t1 t1 hab
  have count2 := T2.counter_add_iff s.t2 t2 hab
  rw [tick_tick_eq a b settled hab]
  constructor
  · intro same
    have c1 := same.t1Counter
    have c2 := same.t2Counter
    rw [once] at c1 c2
    exact ⟨count1.mp c1, count2.mp c2⟩
  · intro ⟨slices1, slices2⟩
    rw [once]
    exact ⟨count1.mpr slices1, T1.active_add _ _ hab, count2.mpr slices2, T2.active_add _ hab, rfl⟩

/-- A new chip with both timers started at 100, Timer 1 in free-run mode. -/
def started : Via :=
  [Op.write 0x911B 0x40, .write 0x9114 100, .write 0x9115 0, .write 0x9118 100,
    .write 0x9119 0].foldl apply (init 0x9110 .conduit)

theorem started_reachable : Reachable started := ⟨0x9110, .conduit, _, rfl⟩

theorem tick_tick_same_iff_started :
    SameTiming (tick (tick started 60) 40) (tick started (60 + 40)) ↔
      T1.SlicesAt (freeRun started) started.t1 60 40 ∧ T2.SlicesAt started.t2 60 40 :=
  tick_tick_same_iff started 60 40 started_reachable (by decide) (by decide) (by decide)

/-- After 101 cycles Timer 1 has run out and restarted; its next cycle counts, but
not when it comes in the same batch. -/
theorem not_every_slicing_same :
    ¬ ∀ (s : Via) (a b : ℕ), Reachable s → s.t1.active = true → s.t2.active = true →
      a + b < 65536 → SameTiming (tick (tick s a) b) (tick s (a + b)) := by
  intro claim
  have same := claim started 101 1 started_reachable (by decide) (by decide) (by decide)
  exact absurd same.t1Counter (by decide)

end Mmemu.Guarantees.ViaTimeSlicing
