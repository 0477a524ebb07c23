import Mmemu.Library.Runs
import Mmemu.Source.Pia6520

/-!
# The interrupt outputs of a PIA 6520

Each output follows the flags of its side, and an access to the data register releases it. It does so
in every run in which C2 is not made an output that asserts by its flag, no data register is accessed
while C2 is an output with its flag set, and no reset comes while an output is asserted.
-/
namespace Mmemu.Guarantees.InterruptOutputs
open Mmemu.Library.GuardedRun Mmemu.Source.Pia6520

/-- The chip's rule for a side's output. -/
def rule (s : Side) : Bool :=
  (s.cr.getLsbD 7 && s.cr.getLsbD 0) || (s.c2Input && s.cr.getLsbD 6 && s.cr.getLsbD 3)

/-! ## Runs -/

inductive Event where
  | read (addr : BitVec 32) (pins : Option Byte)
  | peek (addr : BitVec 32) (pins : Option Byte)
  | write (addr : BitVec 32) (val : Byte)
  | ca1 (lvl : Bool)
  | ca2 (lvl : Bool)
  | cb1 (lvl : Bool)
  | cb2 (lvl : Bool)
  | tick (ca1 ca2 cb1 cb2 : Option Bool)
  | reset

def step (p : PIA6520) : Event → PIA6520
  | .read addr pins => (p.ioRead addr pins).2
  | .peek addr pins => (p.ioPeek addr pins).2
  | .write addr val => (p.ioWrite addr val).2
  | .ca1 lvl => p.setCA1 lvl
  | .ca2 lvl => p.setCA2 lvl
  | .cb1 lvl => p.setCB1 lvl
  | .cb2 lvl => p.setCB2 lvl
  | .tick ca1 ca2 cb1 cb2 => p.tick ca1 ca2 cb1 cb2
  | .reset => p.reset

inductive Which where
  | a | b

def sideOf (p : PIA6520) : Which → Side
  | .a => p.a
  | .b => p.b

/-- The address of a side's data register. -/
def Which.data : Which → ℕ
  | .a => 0
  | .b => 2

/-- C2 is no output with its flag set. -/
def Side.Clear (s : Side) : Prop := s.cr.getLsbD 5 = true → s.cr.getLsbD 6 = false

/-- A control value does not make C2 an output that asserts by its flag alone. -/
def Side.Allows (s : Side) (val : Byte) : Prop :=
  val.getLsbD 5 = true → s.cr.getLsbD 6 = true → val.getLsbD 3 = true →
    s.cr.getLsbD 7 = true ∧ val.getLsbD 0 = true

/-- The register that an access is to. -/
def accessed (p : PIA6520) (addr : BitVec 32) : Option ℕ :=
  if p.decodes addr then some (addr &&& 3).toNat else none

/-- What every step of a run has to meet. -/
def Clean (p : PIA6520) : Event → Prop
  | .read addr _ =>
    (accessed p addr = some 0 → p.a.cr.getLsbD 2 = true → Side.Clear p.a) ∧
      (accessed p addr = some 2 → p.b.cr.getLsbD 2 = true → Side.Clear p.b)
  | .write addr val =>
    (accessed p addr = some 1 → Side.Allows p.a val) ∧
      (accessed p addr = some 2 → p.b.cr.getLsbD 2 = true → Side.Clear p.b) ∧
      (accessed p addr = some 3 → Side.Allows p.b val)
  | .reset => p.a.irq = false ∧ p.b.irq = false
  | _ => True

instance (s : Side) : Decidable (Side.Clear s) := inferInstanceAs (Decidable (_ → _))

instance (s : Side) (val : Byte) : Decidable (Side.Allows s val) := inferInstanceAs (Decidable (_ → _))

instance (p : PIA6520) : (e : Event) → Decidable (Clean p e)
  | .read _ _ => inferInstanceAs (Decidable (_ ∧ _))
  | .write _ _ => inferInstanceAs (Decidable (_ ∧ _))
  | .reset => inferInstanceAs (Decidable (_ ∧ _))
  | .peek _ _ | .ca1 _ | .ca2 _ | .cb1 _ | .cb2 _ | .tick _ _ _ _ => isTrue trivial

/-- The data register of a side is read. -/
def ReadsData (w : Which) (p : PIA6520) : Event → Prop
  | .read addr _ => accessed p addr = some w.data ∧ (sideOf p w).cr.getLsbD 2 = true
  | _ => False

/-- An active edge on one of a side's lines. -/
def Edge (w : Which) (p : PIA6520) : Event → Prop
  | .ca1 lvl => w = .a ∧ p.a.c1Edge lvl = true
  | .ca2 lvl => w = .a ∧ p.a.c2Edge lvl = true
  | .cb1 lvl => w = .b ∧ p.b.c1Edge lvl = true
  | .cb2 lvl => w = .b ∧ p.b.c2Edge lvl = true
  | .tick ca1 ca2 cb1 cb2 =>
    (w = .a ∧ ((∃ lvl ∈ ca1, p.a.c1Edge lvl = true) ∨ ∃ lvl ∈ ca2, p.a.c2Edge lvl = true)) ∨
      (w = .b ∧ ((∃ lvl ∈ cb1, p.b.c1Edge lvl = true) ∨ ∃ lvl ∈ cb2, p.b.c2Edge lvl = true))
  | _ => False

/-! ## One side -/

/-- The flags assert by the rule only. -/
def Agree (cr : Byte) : Prop :=
  cr.getLsbD 5 = true → cr.getLsbD 6 = true → cr.getLsbD 3 = true → cr.getLsbD 7 = true ∧ cr.getLsbD 0 = true

instance (cr : Byte) : Decidable (Agree cr) := inferInstanceAs (Decidable (_ → _))

structure Good (s : Side) : Prop where
  driven : s.irq = s.lastIrq
  cached : s.lastIrq = s.asserts
  agree : Agree s.cr

theorem asserts_rule {s : Side} (agree : Agree s.cr) : s.asserts = rule s := by
  unfold Agree at agree
  unfold Side.asserts rule Side.c2Input
  cases h5 : s.cr.getLsbD 5 <;> cases h6 : s.cr.getLsbD 6 <;> cases h3 : s.cr.getLsbD 3 <;>
    rw [h5, h6, h3] at agree
  all_goals first
    | rfl
    | (rw [(agree rfl rfl rfl).1, (agree rfl rfl rfl).2]; rfl)

theorem Good.follows {s : Side} (good : Good s) : s.irq = rule s :=
  good.driven.trans (good.cached.trans (asserts_rule good.agree))

theorem updateIrq_cr (s : Side) : s.updateIrq.cr = s.cr := by
  unfold Side.updateIrq
  split <;> rfl

/-- `updateIrq` brings the line up to date. -/
theorem updateIrq_good {s : Side} (driven : s.irq = s.lastIrq) (agree : Agree s.cr) : Good s.updateIrq := by
  unfold Side.updateIrq
  split
  next => exact ⟨rfl, rfl, agree⟩
  next same => exact ⟨driven, (not_not.mp same).symm, agree⟩

theorem updated {s : Side} (good : Good s) : Good s.updateIrq := updateIrq_good good.driven good.agree

theorem agree_c1 : ∀ cr : Byte, Agree cr → Agree (cr ||| 0x80) := by decide

theorem agree_c2 : ∀ cr : Byte, cr.getLsbD 5 = false → Agree (cr ||| 0x40) := by decide

theorem agree_output : ∀ cr : Byte, (cr.getLsbD 5 = true → cr.getLsbD 6 = false) → Agree (cr &&& ~~~0x80) := by
  decide

theorem agree_input : ∀ cr : Byte, Agree (cr &&& ~~~0x80 &&& ~~~0x40) := by decide

theorem control_bits (cr val : Byte) :
    ((cr &&& 0xC0) ||| (val &&& 0x3F)).getLsbD 5 = val.getLsbD 5 ∧
      ((cr &&& 0xC0) ||| (val &&& 0x3F)).getLsbD 3 = val.getLsbD 3 ∧
      ((cr &&& 0xC0) ||| (val &&& 0x3F)).getLsbD 0 = val.getLsbD 0 ∧
      ((cr &&& 0xC0) ||| (val &&& 0x3F)).getLsbD 6 = cr.getLsbD 6 ∧
      ((cr &&& 0xC0) ||| (val &&& 0x3F)).getLsbD 7 = cr.getLsbD 7 := by
  simp

theorem flagC1_good {s : Side} (good : Good s) : Good s.flagC1.updateIrq := by
  unfold Side.flagC1
  dsimp only
  split <;> exact updateIrq_good good.driven (agree_c1 _ good.agree)

theorem flagC2_good {s : Side} (good : Good s) {lvl : Bool} (edge : s.c2Edge lvl = true) : Good s.flagC2.updateIrq := by
  have input : s.cr.getLsbD 5 = false := by
    have both := (Bool.and_eq_true_iff.mp edge).1
    unfold Side.c2Input at both
    simpa using both
  exact updateIrq_good good.driven (agree_c2 _ input)

theorem clearFlags_good {s : Side} (driven : s.irq = s.lastIrq) (clear : Side.Clear s) :
    Good s.clearFlags.updateIrq := by
  unfold Side.clearFlags
  dsimp only
  split
  next => exact updateIrq_good driven (agree_input _)
  next => exact updateIrq_good driven (agree_output _ clear)

/-- An access that also drives C2 in mode 100. -/
theorem handshake_good {s : Side} (good : Good s) (clear : Side.Clear s) :
    Good (if s.handshakes then s.driveC2 false else s).clearFlags.updateIrq := by
  split
  next => exact clearFlags_good good.driven clear
  next => exact clearFlags_good good.driven clear

theorem control_good {s : Side} (good : Good s) {val : Byte} (allows : Side.Allows s val) :
    Good (s.control val).updateIrq := by
  have agree : Agree ((s.cr &&& 0xC0) ||| (val &&& 0x3F)) := by
    obtain ⟨h5, h3, h0, h6, h7⟩ := control_bits s.cr val
    unfold Agree
    rw [h5, h3, h0, h6, h7]
    exact allows
  unfold Side.control
  dsimp only
  split
  · exact updateIrq_good good.driven agree
  · split <;> exact updateIrq_good good.driven agree

/-- What `updateIrq` does not look at may change. -/
theorem Good.with {s s' : Side} (good : Good s) (cr : s'.cr = s.cr) (irq : s'.irq = s.irq)
    (last : s'.lastIrq = s.lastIrq) : Good s' := by
  have asserts : s'.asserts = s.asserts := by
    unfold Side.asserts
    rw [cr]
  exact ⟨irq.trans (good.driven.trans last.symm), last.trans (good.cached.trans asserts.symm), cr ▸ good.agree⟩

theorem clear_cr {s : Side} (zero : s.cr = 0) : s.asserts = false ∧ Agree s.cr := by
  unfold Side.asserts
  rw [zero]
  exact ⟨by decide, by decide⟩

theorem reset_good {s : Side} (released : s.irq = false) : Good s.reset :=
  ⟨released, (@clear_cr s.reset rfl).1.symm, (@clear_cr s.reset rfl).2⟩

/-! ## The device -/

structure BothGood (p : PIA6520) : Prop where
  a : Good p.a
  b : Good p.b

theorem setCA1_good {p : PIA6520} (good : BothGood p) (lvl : Bool) : BothGood (p.setCA1 lvl) := by
  unfold PIA6520.setCA1
  dsimp only
  split
  next => exact ⟨(flagC1_good good.a).with rfl rfl rfl, updated good.b⟩
  next => exact ⟨good.a.with rfl rfl rfl, good.b⟩

theorem setCA2_good {p : PIA6520} (good : BothGood p) (lvl : Bool) : BothGood (p.setCA2 lvl) := by
  unfold PIA6520.setCA2
  dsimp only
  split
  next edge => exact ⟨(flagC2_good good.a edge).with rfl rfl rfl, updated good.b⟩
  next => exact ⟨good.a.with rfl rfl rfl, good.b⟩

theorem setCB1_good {p : PIA6520} (good : BothGood p) (lvl : Bool) : BothGood (p.setCB1 lvl) := by
  unfold PIA6520.setCB1
  dsimp only
  split
  next => exact ⟨updated good.a, (flagC1_good good.b).with rfl rfl rfl⟩
  next => exact ⟨good.a, good.b.with rfl rfl rfl⟩

theorem setCB2_good {p : PIA6520} (good : BothGood p) (lvl : Bool) : BothGood (p.setCB2 lvl) := by
  unfold PIA6520.setCB2
  dsimp only
  split
  next edge => exact ⟨updated good.a, (flagC2_good good.b edge).with rfl rfl rfl⟩
  next => exact ⟨good.a, good.b.with rfl rfl rfl⟩

theorem tick_good {p : PIA6520} (good : BothGood p) (ca1 ca2 cb1 cb2 : Option Bool) :
    BothGood (p.tick ca1 ca2 cb1 cb2) := by
  have line (lvl : Option Bool) (set : PIA6520 → Bool → PIA6520)
      (keeps : ∀ {p : PIA6520}, BothGood p → ∀ lvl, BothGood (set p lvl)) {p : PIA6520} (good : BothGood p) :
      BothGood (lvl.elim p (set p)) := by
    cases lvl with
    | none => exact good
    | some lvl => exact keeps good lvl
  exact line cb2 _ setCB2_good (line cb1 _ setCB1_good (line ca2 _ setCA2_good (line ca1 _ setCA1_good good)))

theorem accessed_some {p : PIA6520} {addr : BitVec 32} (here : ¬¬(p.decodes addr = true)) {n : ℕ}
    (reg : (addr &&& 3).toNat = n) : accessed p addr = some n := by
  unfold accessed
  rw [if_pos (not_not.mp here), reg]

theorem read_good {p : PIA6520} (good : BothGood p) (addr : BitVec 32) (pins : Option Byte)
    (clean : Clean p (.read addr pins)) : BothGood (p.ioRead addr pins).2 := by
  obtain ⟨clear_a, clear_b⟩ := clean
  unfold PIA6520.ioRead PIA6520.readReg
  split
  next => exact good
  next here =>
    split
    next reg =>
      split
      next data =>
        have clear := clear_a (accessed_some here reg) data
        exact ⟨handshake_good good.a clear, updated good.b⟩
      next => exact good
    next => exact good
    next reg =>
      split
      next data => exact ⟨updated good.a, clearFlags_good good.b.driven (clear_b (accessed_some here reg) data)⟩
      next => exact good
    next => exact good

theorem peek_same (p : PIA6520) (addr : BitVec 32) (pins : Option Byte) : (p.ioPeek addr pins).2 = p := by
  unfold PIA6520.ioPeek PIA6520.readReg
  split
  next => rfl
  next =>
    split
    next => split <;> rfl
    next => rfl
    next => split <;> rfl
    next => rfl

theorem write_good {p : PIA6520} (good : BothGood p) (addr : BitVec 32) (val : Byte)
    (clean : Clean p (.write addr val)) : BothGood (p.ioWrite addr val).2 := by
  obtain ⟨allows_a, clear_b, allows_b⟩ := clean
  unfold PIA6520.ioWrite
  split
  next => exact good
  next here =>
    split
    next =>
      split
      next => exact ⟨good.a.with rfl rfl rfl, good.b⟩
      next => exact ⟨good.a.with rfl rfl rfl, good.b⟩
    next reg => exact ⟨control_good good.a (allows_a (accessed_some here reg)), updated good.b⟩
    next reg =>
      split
      next data =>
        have clear := clear_b (accessed_some here reg) data
        exact ⟨updated good.a, @handshake_good { p.b with or := val } (good.b.with rfl rfl rfl) clear⟩
      next => exact ⟨good.a, good.b.with rfl rfl rfl⟩
    next n0 n1 n2 =>
      have reg : (addr &&& 3).toNat = 3 := by
        have low : (addr &&& 3).toNat < 4 := by
          rw [BitVec.toNat_and]
          exact Nat.lt_succ_of_le Nat.and_le_right
        have apart : (addr &&& 3).toNat ≠ 0 ∧ (addr &&& 3).toNat ≠ 1 ∧ (addr &&& 3).toNat ≠ 2 :=
          ⟨n0, n1, n2⟩
        omega
      exact ⟨updated good.a, control_good good.b (allows_b (accessed_some here reg))⟩

theorem step_good {p : PIA6520} (good : BothGood p) (e : Event) (clean : Clean p e) : BothGood (step p e) := by
  cases e with
  | read addr pins => exact read_good good addr pins clean
  | peek addr pins =>
    show BothGood (p.ioPeek addr pins).2
    rw [peek_same]
    exact good
  | write addr val => exact write_good good addr val clean
  | ca1 lvl => exact setCA1_good good lvl
  | ca2 lvl => exact setCA2_good good lvl
  | cb1 lvl => exact setCB1_good good lvl
  | cb2 lvl => exact setCB2_good good lvl
  | tick ca1 ca2 cb1 cb2 => exact tick_good good ca1 ca2 cb1 cb2
  | reset => exact ⟨reset_good clean.1, reset_good clean.2⟩

theorem new_good (base : BitVec 32) : BothGood (.new base) :=
  ⟨⟨rfl, (clear_cr rfl).1.symm, (clear_cr rfl).2⟩, ⟨rfl, (clear_cr rfl).1.symm, (clear_cr rfl).2⟩⟩

/-! ## After a read of the data register -/

/-- Neither flag is set. -/
def Released (s : Side) : Prop := s.cr.getLsbD 7 = false ∧ s.cr.getLsbD 6 = false

theorem Released.rule {s : Side} (released : Released s) : rule s = false := by
  unfold InterruptOutputs.rule
  rw [released.1, released.2, Bool.and_false]
  rfl

theorem clear_output : ∀ cr : Byte, (cr.getLsbD 5 = true → cr.getLsbD 6 = false) → cr.getLsbD 5 = true →
    (cr &&& ~~~0x80).getLsbD 7 = false ∧ (cr &&& ~~~0x80).getLsbD 6 = false := by
  decide

theorem clear_input : ∀ cr : Byte,
    (cr &&& ~~~0x80 &&& ~~~0x40).getLsbD 7 = false ∧ (cr &&& ~~~0x80 &&& ~~~0x40).getLsbD 6 = false := by
  decide

theorem clearFlags_released {s : Side} (clear : Side.Clear s) : Released s.clearFlags := by
  unfold Side.clearFlags Released
  dsimp only
  split
  next => exact clear_input s.cr
  next output =>
    refine clear_output s.cr clear ?_
    unfold Side.c2Input at output
    simpa using output

theorem zero_released {s : Side} (zero : s.cr = 0) : Released s := by
  unfold Released
  rw [zero]
  exact ⟨by decide, by decide⟩

theorem Released.of_cr {s s' : Side} (released : Released s) (cr : s'.cr = s.cr) : Released s' := by
  unfold Released
  rw [cr]
  exact released

/-- What the edges look at is the same. -/
structure Same (s s' : Side) : Prop where
  cr : s'.cr = s.cr
  c1 : s'.c1Prev = s.c1Prev
  c2 : s'.c2Prev = s.c2Prev

theorem updateIrq_same (s : Side) : Same s s.updateIrq := by
  unfold Side.updateIrq
  split <;> exact ⟨rfl, rfl, rfl⟩

theorem c1Edge_congr {s s' : Side} (cr : s'.cr = s.cr) (c1 : s'.c1Prev = s.c1Prev) (lvl : Bool) :
    s'.c1Edge lvl = s.c1Edge lvl := by
  unfold Side.c1Edge
  rw [cr, c1]

theorem c2Edge_congr {s s' : Side} (cr : s'.cr = s.cr) (c2 : s'.c2Prev = s.c2Prev) (lvl : Bool) :
    s'.c2Edge lvl = s.c2Edge lvl := by
  unfold Side.c2Edge Side.c2Input
  rw [cr, c2]

theorem Same.trans {s s' s'' : Side} (first : Same s s') (next : Same s' s'') : Same s s'' :=
  ⟨next.cr.trans first.cr, next.c1.trans first.c1, next.c2.trans first.c2⟩

theorem setCA1_b (p : PIA6520) (lvl : Bool) : Same p.b (p.setCA1 lvl).b := by
  unfold PIA6520.setCA1
  dsimp only
  split
  next => exact updateIrq_same p.b
  next => exact ⟨rfl, rfl, rfl⟩

theorem setCA2_b (p : PIA6520) (lvl : Bool) : Same p.b (p.setCA2 lvl).b := by
  unfold PIA6520.setCA2
  dsimp only
  split
  next => exact updateIrq_same p.b
  next => exact ⟨rfl, rfl, rfl⟩

theorem setCB1_a (p : PIA6520) (lvl : Bool) : Same p.a (p.setCB1 lvl).a := by
  unfold PIA6520.setCB1
  dsimp only
  split
  next => exact updateIrq_same p.a
  next => exact ⟨rfl, rfl, rfl⟩

theorem setCB2_a (p : PIA6520) (lvl : Bool) : Same p.a (p.setCB2 lvl).a := by
  unfold PIA6520.setCB2
  dsimp only
  split
  next => exact updateIrq_same p.a
  next => exact ⟨rfl, rfl, rfl⟩

/-- A side's own lines without an active edge. -/
theorem quiet_ca1 {p : PIA6520} {lvl : Bool} (quiet : ¬p.a.c1Edge lvl = true) :
    (p.setCA1 lvl).a = { p.a with c1Prev := lvl } := by
  unfold PIA6520.setCA1
  rw [if_neg quiet]

theorem quiet_ca2 {p : PIA6520} {lvl : Bool} (quiet : ¬p.a.c2Edge lvl = true) :
    (p.setCA2 lvl).a = { p.a with c2Prev := lvl } := by
  unfold PIA6520.setCA2
  rw [if_neg quiet]

theorem quiet_cb1 {p : PIA6520} {lvl : Bool} (quiet : ¬p.b.c1Edge lvl = true) :
    (p.setCB1 lvl).b = { p.b with c1Prev := lvl } := by
  unfold PIA6520.setCB1
  rw [if_neg quiet]

theorem quiet_cb2 {p : PIA6520} {lvl : Bool} (quiet : ¬p.b.c2Edge lvl = true) :
    (p.setCB2 lvl).b = { p.b with c2Prev := lvl } := by
  unfold PIA6520.setCB2
  rw [if_neg quiet]

/-- Lines that may not be there. -/
theorem elim_rel {p : PIA6520} {set : PIA6520 → Bool → PIA6520} {R : PIA6520 → Prop} (lvl : Option Bool)
    (none_ : R p) (some_ : ∀ l ∈ lvl, R (set p l)) : R (lvl.elim p (set p)) := by
  cases lvl with
  | none => exact none_
  | some l => exact some_ l rfl

theorem tick_cr {w : Which} {p : PIA6520} {ca1 ca2 cb1 cb2 : Option Bool} (quiet : ¬Edge w p (.tick ca1 ca2 cb1 cb2)) :
    (sideOf (p.tick ca1 ca2 cb1 cb2) w).cr = (sideOf p w).cr := by
  cases w with
  | a =>
    have no_c1 : ∀ l ∈ ca1, ¬p.a.c1Edge l = true :=
      fun l mem edge => quiet (.inl ⟨rfl, .inl ⟨l, mem, edge⟩⟩)
    have no_c2 : ∀ l ∈ ca2, ¬p.a.c2Edge l = true :=
      fun l mem edge => quiet (.inl ⟨rfl, .inr ⟨l, mem, edge⟩⟩)
    -- no edge on the side's own lines, and the other side's lines do not reach it
    have first := @elim_rel p PIA6520.setCA1 (fun p' => p'.a.cr = p.a.cr ∧ p'.a.c2Prev = p.a.c2Prev) ca1
      ⟨rfl, rfl⟩ fun l mem => by rw [quiet_ca1 (no_c1 l mem)]; exact ⟨rfl, rfl⟩
    have second := @elim_rel (ca1.elim p p.setCA1) PIA6520.setCA2 (fun p' => p'.a.cr = p.a.cr) ca2 first.1
      fun l mem => by
        have edge := c2Edge_congr first.1 first.2 l
        rw [quiet_ca2 (edge ▸ no_c2 l mem)]
        exact first.1
    have third := @elim_rel _ PIA6520.setCB1 (fun p' => p'.a.cr = p.a.cr) cb1 second
      fun l _ => (setCB1_a _ l).cr.trans second
    exact @elim_rel _ PIA6520.setCB2 (fun p' => p'.a.cr = p.a.cr) cb2 third fun l _ => (setCB2_a _ l).cr.trans third
  | b =>
    have no_c1 : ∀ l ∈ cb1, ¬p.b.c1Edge l = true :=
      fun l mem edge => quiet (.inr ⟨rfl, .inl ⟨l, mem, edge⟩⟩)
    have no_c2 : ∀ l ∈ cb2, ¬p.b.c2Edge l = true :=
      fun l mem edge => quiet (.inr ⟨rfl, .inr ⟨l, mem, edge⟩⟩)
    have first := @elim_rel p PIA6520.setCA1 (fun p' => Same p.b p'.b) ca1 ⟨rfl, rfl, rfl⟩ fun l _ => setCA1_b p l
    have second := @elim_rel _ PIA6520.setCA2 (fun p' => Same p.b p'.b) ca2 first
      fun l _ => first.trans (setCA2_b _ l)
    have third := @elim_rel _ PIA6520.setCB1 (fun p' => p'.b.cr = p.b.cr ∧ p'.b.c2Prev = p.b.c2Prev) cb1
      ⟨second.cr, second.c2⟩ fun l mem => by
        have edge := c1Edge_congr second.cr second.c1 l
        rw [quiet_cb1 (edge ▸ no_c1 l mem)]
        exact ⟨second.cr, second.c2⟩
    refine @elim_rel _ PIA6520.setCB2 (fun p' => p'.b.cr = p.b.cr) cb2 third.1 fun l mem => ?_
    have edge := c2Edge_congr third.1 third.2 l
    rw [quiet_cb2 (edge ▸ no_c2 l mem)]
    exact third.1

theorem Released.update {s : Side} (released : Released s) : Released s.updateIrq := released.of_cr (updateIrq_cr s)

theorem Released.access {s : Side} (released : Released s) :
    Released (if s.handshakes then s.driveC2 false else s).clearFlags.updateIrq := by
  split
  next => exact (@clearFlags_released (s.driveC2 false) fun _ => released.2).update
  next => exact (clearFlags_released fun _ => released.2).update

theorem Released.clearFlags {s : Side} (released : Released s) : Released s.clearFlags.updateIrq :=
  (clearFlags_released fun _ => released.2).update

theorem Released.control {s : Side} (released : Released s) (val : Byte) : Released (s.control val).updateIrq := by
  have cr : (s.control val).cr = (s.cr &&& 0xC0) ||| (val &&& 0x3F) := by
    unfold Side.control
    dsimp only
    split
    · rfl
    · split <;> rfl
  refine Released.update ?_
  unfold Released
  obtain ⟨-, -, -, h6, h7⟩ := control_bits s.cr val
  rw [cr, h6, h7]
  exact released

theorem read_released {w : Which} {p : PIA6520} (released : Released (sideOf p w)) (addr : BitVec 32)
    (pins : Option Byte) : Released (sideOf (p.ioRead addr pins).2 w) := by
  unfold PIA6520.ioRead PIA6520.readReg
  split
  next => exact released
  next =>
    split
    next =>
      split
      next =>
        cases w with
        | a => exact Released.access released
        | b => exact Released.update released
      next => exact released
    next => exact released
    next =>
      split
      next =>
        cases w with
        | a => exact Released.update released
        | b => exact Released.clearFlags released
      next => exact released
    next => exact released

theorem write_released {w : Which} {p : PIA6520} (released : Released (sideOf p w)) (addr : BitVec 32) (val : Byte) :
    Released (sideOf (p.ioWrite addr val).2 w) := by
  unfold PIA6520.ioWrite
  split
  next => exact released
  next =>
    split
    next => split <;> cases w <;> exact released
    next =>
      cases w with
      | a => exact Released.control released val
      | b => exact Released.update released
    next =>
      split
      next =>
        cases w with
        | a => exact Released.update released
        | b => exact @Released.access { p.b with or := val } released
      next => cases w <;> exact released
    next =>
      cases w with
      | a => exact Released.update released
      | b => exact Released.control released val

/-- Without an active edge of the side's lines no flag is set. -/
theorem step_released {w : Which} {p : PIA6520} (released : Released (sideOf p w)) {e : Event} (quiet : ¬Edge w p e) :
    Released (sideOf (step p e) w) := by
  cases e with
  | read addr pins => exact read_released released addr pins
  | peek addr pins =>
    show Released (sideOf (p.ioPeek addr pins).2 w)
    rw [peek_same]
    exact released
  | write addr val => exact write_released released addr val
  | ca1 lvl =>
    cases w with
    | a =>
      have cr : (p.setCA1 lvl).a.cr = p.a.cr := by rw [quiet_ca1 fun edge => quiet ⟨rfl, edge⟩]
      exact released.of_cr cr
    | b => exact released.of_cr (setCA1_b p lvl).cr
  | ca2 lvl =>
    cases w with
    | a =>
      have cr : (p.setCA2 lvl).a.cr = p.a.cr := by rw [quiet_ca2 fun edge => quiet ⟨rfl, edge⟩]
      exact released.of_cr cr
    | b => exact released.of_cr (setCA2_b p lvl).cr
  | cb1 lvl =>
    cases w with
    | a => exact released.of_cr (setCB1_a p lvl).cr
    | b =>
      have cr : (p.setCB1 lvl).b.cr = p.b.cr := by rw [quiet_cb1 fun edge => quiet ⟨rfl, edge⟩]
      exact released.of_cr cr
  | cb2 lvl =>
    cases w with
    | a => exact released.of_cr (setCB2_a p lvl).cr
    | b =>
      have cr : (p.setCB2 lvl).b.cr = p.b.cr := by rw [quiet_cb2 fun edge => quiet ⟨rfl, edge⟩]
      exact released.of_cr cr
  | tick ca1 ca2 cb1 cb2 => exact released.of_cr (tick_cr quiet)
  | reset =>
    cases w with
    | a => exact zero_released rfl
    | b => exact zero_released rfl

theorem reads_released {w : Which} {p : PIA6520} {e : Event} (reads : ReadsData w p e) (clean : Clean p e) :
    Released (sideOf (step p e) w) := by
  cases e with
  | read addr pins =>
    obtain ⟨here, data⟩ := reads
    have decodes : p.decodes addr = true := by
      by_contra other
      unfold accessed at here
      rw [if_neg other] at here
      cases here
    have reg : (addr &&& 3).toNat = w.data := by
      unfold accessed at here
      rw [if_pos decodes] at here
      exact Option.some.inj here
    show Released (sideOf (p.ioRead addr pins).2 w)
    unfold PIA6520.ioRead PIA6520.readReg
    rw [if_neg (not_not.mpr decodes), reg]
    cases w with
    | a =>
      have clear := clean.1 here data
      have cr : p.a.cr.getLsbD 2 = true := data
      dsimp only [Which.data]
      rw [if_pos cr]
      refine Released.update ?_
      split
      next => exact clearFlags_released clear
      next => exact clearFlags_released clear
    | b =>
      have clear := clean.2 here data
      have cr : p.b.cr.getLsbD 2 = true := data
      dsimp only [Which.data]
      rw [if_pos cr]
      exact Released.update (clearFlags_released clear)
  | peek | write | ca1 | ca2 | cb1 | cb2 | tick | reset => exact reads.elim

theorem BothGood.side {p : PIA6520} (good : BothGood p) (w : Which) : Good (sideOf p w) := by
  cases w with
  | a => exact good.a
  | b => exact good.b

/-- In every clean run each output follows the rule; after a read of a side's data register it is
released, and stays so until an active edge on one of the side's lines. -/
theorem interrupt_outputs (base : BitVec 32) {es : List Event} (clean : Guarded step Clean (.new base) es)
    (w : Which) : (sideOf (es.foldl step (.new base)) w).irq = rule (sideOf (es.foldl step (.new base)) w) ∧
      ∀ e more, ReadsData w (es.foldl step (.new base)) e →
        Guarded step Clean (es.foldl step (.new base)) (e :: more) →
        Guarded step (fun p e => ¬Edge w p e) (step (es.foldl step (.new base)) e) more →
          (sideOf ((e :: more).foldl step (es.foldl step (.new base))) w).irq = false := by
  have good : BothGood (es.foldl step (.new base)) :=
    foldl_invariant step Clean BothGood (fun _ e good clean => step_good good e clean) _ es (new_good base) clean
  refine ⟨(good.side w).follows, fun e more reads more_clean quiet => ?_⟩
  have last := foldl_invariant step Clean BothGood (fun _ e good clean => step_good good e clean) _ _ good more_clean
  have released := foldl_invariant step (fun p e => ¬Edge w p e) (fun p => Released (sideOf p w))
    (fun _ _ released quiet => step_released released quiet) _ more (reads_released reads more_clean.1) quiet
  exact (last.side w).follows.trans released.rule

/-- CA1's interrupt is enabled, comes and is acknowledged. -/
theorem interrupt_outputs_ca1 :
    (([.write 1 0x05, .ca1 false] : List Event).foldl step (.new 0)).a.irq = true ∧
      (([.read 0 none] : List Event).foldl step
        (([.write 1 0x05, .ca1 false] : List Event).foldl step (.new 0))).a.irq = false := by
  have clean : Guarded step Clean (.new 0) [.write 1 0x05, .ca1 false] := by decide
  have follows := interrupt_outputs 0 clean .a
  refine ⟨follows.1.trans (by decide), ?_⟩
  exact follows.2 (.read 0 none) [] ⟨by decide, by decide⟩ (by decide) trivial

/-- C2's flag asserts the output although C2 has become an output; a reset leaves the line asserted; and
a flag that a read of the data register has left asserts the output without an edge. -/
theorem flag_of_an_output :
    (([.write 1 0x0C, .ca2 false, .write 1 0x2C] : List Event).foldl step (.new 0)).a.irq = true ∧
      rule (([.write 1 0x0C, .ca2 false, .write 1 0x2C] : List Event).foldl step (.new 0)).a = false ∧
    (([.write 1 0x05, .ca1 false, .reset] : List Event).foldl step (.new 0)).a.irq = true ∧
      rule (([.write 1 0x05, .ca1 false, .reset] : List Event).foldl step (.new 0)).a = false ∧
    (([.write 1 0x04, .ca2 false, .write 1 0x24, .read 0 none, .write 1 0x0C] : List Event).foldl step
      (.new 0)).a.irq = true := by
  decide

end Mmemu.Guarantees.InterruptOutputs
