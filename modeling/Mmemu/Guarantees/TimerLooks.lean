import Mmemu.Source.Riot6532

/-!
# Looking at the RIOT's timer

However often the timer is brought up to date on the way, it ends in the same state; and what it shows
after it has been set is a closed form of the cycles since.
-/
namespace Mmemu.Guarantees.TimerLooks
open Mmemu.Source.Riot6532

/-! ## The timer in closed form -/

/-- The intervals that end in `n` cycles. -/
def completed (r : Riot) (n : ℕ) : ℕ := (n + r.m_subTimer.toNat) / r.m_divider.toNat

/-- The cycles after expiry. -/
def past (r : Riot) (n : ℕ) : ℕ := n + r.m_subTimer.toNat - (r.m_timer.toNat + 1) * r.m_divider.toNat

/-- The timer after `n` cycles. -/
def counted (r : Riot) (n : ℕ) : Riot :=
  let sub := BitVec.ofNat 32 ((n + r.m_subTimer.toNat) % r.m_divider.toNat)
  if r.m_flags.getLsbD 7 then
    { r with
      m_subTimer := sub
      m_timer := r.m_timer - BitVec.ofNat 8 n
      m_wrappedThisCycle := r.m_timer - BitVec.ofNat 8 n = 0xFF }
  else if r.m_timer.toNat < completed r n then
    { r with
      m_subTimer := sub
      m_timer := 0xFF - BitVec.ofNat 8 (past r n)
      m_flags := r.m_flags ||| 0x80
      m_wrappedThisCycle := 0xFF - BitVec.ofNat 8 (past r n) = 0xFF }
  else
    { r with
      m_subTimer := sub
      m_timer := BitVec.ofNat 8 (r.m_timer.toNat - completed r n)
      m_wrappedThisCycle := false }

/-- The divider is the power of two of the shift, and the phase is below it. -/
structure Valid (r : Riot) : Prop where
  small : r.m_shift.toNat ≤ 10
  power : r.m_divider.toNat = 2 ^ r.m_shift.toNat
  phase : r.m_subTimer.toNat < r.m_divider.toNat
  wrapped : r.m_wrappedThisCycle = true → r.m_flags.getLsbD 7 = true

theorem Valid.few {r : Riot} (valid : Valid r) : 0 < r.m_divider.toNat ∧ r.m_divider.toNat ≤ 1024 := by
  rw [valid.power]
  exact ⟨Nat.two_pow_pos _, Nat.pow_le_pow_right Nat.two_pos valid.small⟩

theorem sub_counted {r : Riot} (valid : Valid r) {n : ℕ} (fits : n + r.m_subTimer.toNat < 2 ^ 32) :
    (BitVec.ofNat 32 n + r.m_subTimer) &&& (r.m_divider - 1) =
      BitVec.ofNat 32 ((n + r.m_subTimer.toNat) % r.m_divider.toNat) := by
  have few := valid.few
  have sum : (BitVec.ofNat 32 n + r.m_subTimer).toNat = n + r.m_subTimer.toNat := by
    rw [BitVec.toNat_add, BitVec.toNat_ofNat]
    omega
  have one : (1 : BitVec 32).toNat = 1 := rfl
  have mask : (r.m_divider - 1).toNat = 2 ^ r.m_shift.toNat - 1 := by
    rw [BitVec.toNat_sub, one, ← valid.power]
    omega
  have low : (n + r.m_subTimer.toNat) % r.m_divider.toNat < 2 ^ 32 :=
    (Nat.mod_lt _ few.1).trans (by omega)
  apply BitVec.eq_of_toNat_eq
  rw [BitVec.toNat_and, sum, mask, Nat.and_two_pow_sub_one_eq_mod, ← valid.power, BitVec.toNat_ofNat,
    Nat.mod_eq_of_lt low]

theorem ticks_counted {r : Riot} (valid : Valid r) {n : ℕ} (fits : n + r.m_subTimer.toNat < 2 ^ 32) :
    ((BitVec.ofNat 32 n + r.m_subTimer) >>> r.m_shift).toNat = completed r n := by
  have sum : (BitVec.ofNat 32 n + r.m_subTimer).toNat = n + r.m_subTimer.toNat := by
    rw [BitVec.toNat_add, BitVec.toNat_ofNat]
    omega
  show (BitVec.ushiftRight _ r.m_shift.toNat).toNat = _
  unfold completed
  rw [BitVec.ushiftRight_eq, BitVec.toNat_ushiftRight, sum, Nat.shiftRight_eq_div_pow, valid.power]

/-- A byte less 32-bit cycles, as a byte. -/
theorem byte_sub (t : Byte) {c : BitVec 32} {n : ℕ} (is_n : c.toNat % 256 = n % 256) :
    (t.setWidth 32 - c).setWidth 8 = t - BitVec.ofNat 8 n := by
  have low := t.isLt
  have high := c.isLt
  apply BitVec.eq_of_toNat_eq
  rw [BitVec.toNat_setWidth, BitVec.toNat_sub, BitVec.toNat_sub, BitVec.toNat_setWidth, BitVec.toNat_ofNat]
  omega

/-- At expiry the cycles that are left over. -/
theorem past_counted {r : Riot} (valid : Valid r) {n : ℕ} (fits : n + r.m_subTimer.toNat < 2 ^ 32)
    (expires : r.m_timer.toNat < completed r n) :
    (BitVec.ofNat 32 n - (((r.m_timer.setWidth 32 + 1) <<< r.m_shift) - r.m_subTimer)).toNat = past r n := by
  have few := valid.few
  have low := r.m_timer.isLt
  have phase := valid.phase
  have enough : (r.m_timer.toNat + 1) * r.m_divider.toNat ≤ n + r.m_subTimer.toNat :=
    (Nat.le_div_iff_mul_le few.1).mp expires
  have most : (r.m_timer.toNat + 1) * r.m_divider.toNat ≤ 256 * 1024 := Nat.mul_le_mul (by omega) few.2
  have least : 1 * r.m_divider.toNat ≤ (r.m_timer.toNat + 1) * r.m_divider.toNat :=
    Nat.mul_le_mul_right _ (by omega)
  have one : (1 : BitVec 32).toNat = 1 := rfl
  have span : ((r.m_timer.setWidth 32 + 1) <<< r.m_shift).toNat = (r.m_timer.toNat + 1) * r.m_divider.toNat := by
    show (BitVec.shiftLeft _ r.m_shift.toNat).toNat = _
    rw [BitVec.shiftLeft_eq, BitVec.toNat_shiftLeft, BitVec.toNat_add, BitVec.toNat_setWidth, one,
      Nat.shiftLeft_eq, ← valid.power]
    have same : (r.m_timer.toNat % 2 ^ 32 + 1) % 2 ^ 32 = r.m_timer.toNat + 1 := by omega
    rw [same]
    exact Nat.mod_eq_of_lt (by omega)
  unfold past
  rw [BitVec.toNat_sub, BitVec.toNat_sub, span, BitVec.toNat_ofNat]
  omega

theorem countTimer_eq {r : Riot} (valid : Valid r) {n : ℕ} (fits : n + r.m_subTimer.toNat < 2 ^ 32) :
    r.countTimer (BitVec.ofNat 32 n) = counted r n := by
  have few := valid.few
  have low := r.m_timer.isLt
  have wide : (r.m_timer.setWidth 32).toNat = r.m_timer.toNat := by
    rw [BitVec.toNat_setWidth]
    omega
  have ticks := ticks_counted valid fits
  unfold Riot.countTimer counted Riot.countCycles
  rw [sub_counted valid fits]
  dsimp only
  by_cases flag : r.m_flags.getLsbD 7 = true
  · rw [if_pos flag, if_pos flag, @byte_sub r.m_timer (BitVec.ofNat 32 n) n (by rw [BitVec.toNat_ofNat]; omega)]
  · rw [if_neg flag, if_neg flag]
    have less : r.m_timer.setWidth 32 < (BitVec.ofNat 32 n + r.m_subTimer) >>> r.m_shift ↔
        r.m_timer.toNat < completed r n := by
      rw [BitVec.lt_def, wide, ticks]
    by_cases expires : r.m_timer.toNat < completed r n
    · have left := past_counted valid fits expires
      rw [if_pos expires, if_pos (less.mpr expires), @byte_sub 0xFF _ (past r n) (by rw [left])]
    · have fewer : ((BitVec.ofNat 32 n + r.m_subTimer) >>> r.m_shift).toNat ≤ (r.m_timer.setWidth 32).toNat := by
        rw [ticks, wide]
        exact Nat.not_lt.mp expires
      have rest : (r.m_timer.setWidth 32 - (BitVec.ofNat 32 n + r.m_subTimer) >>> r.m_shift).setWidth 8 =
          BitVec.ofNat 8 (r.m_timer.toNat - completed r n) := by
        apply BitVec.eq_of_toNat_eq
        rw [BitVec.toNat_setWidth, BitVec.toNat_sub_of_le (BitVec.le_def.mpr fewer), ticks, wide, BitVec.toNat_ofNat]
      rw [if_neg expires, if_neg (less.not.mpr expires), rest]

/-! ## Two spans -/

theorem flag_set (b : Byte) : (b ||| 0x80).getLsbD 7 = true := by
  rw [BitVec.getLsbD_or]
  exact Bool.or_true _

theorem counted_flag {r : Riot} {n : ℕ} (flag : r.m_flags.getLsbD 7 = true) : counted r n =
    { r with
      m_subTimer := BitVec.ofNat 32 ((n + r.m_subTimer.toNat) % r.m_divider.toNat)
      m_timer := r.m_timer - BitVec.ofNat 8 n
      m_wrappedThisCycle := r.m_timer - BitVec.ofNat 8 n = 0xFF } := if_pos flag

theorem counted_expires {r : Riot} {n : ℕ} (clear : ¬r.m_flags.getLsbD 7 = true)
    (expires : r.m_timer.toNat < completed r n) : counted r n =
    { r with
      m_subTimer := BitVec.ofNat 32 ((n + r.m_subTimer.toNat) % r.m_divider.toNat)
      m_timer := 0xFF - BitVec.ofNat 8 (past r n)
      m_flags := r.m_flags ||| 0x80
      m_wrappedThisCycle := 0xFF - BitVec.ofNat 8 (past r n) = 0xFF } := (if_neg clear).trans (if_pos expires)

theorem counted_runs {r : Riot} {n : ℕ} (clear : ¬r.m_flags.getLsbD 7 = true)
    (runs : ¬r.m_timer.toNat < completed r n) : counted r n =
    { r with
      m_subTimer := BitVec.ofNat 32 ((n + r.m_subTimer.toNat) % r.m_divider.toNat)
      m_timer := BitVec.ofNat 8 (r.m_timer.toNat - completed r n)
      m_wrappedThisCycle := false } := (if_neg clear).trans (if_neg runs)

/-- A byte that counts two spans. -/
theorem byte_sub_sub (t : Byte) (a b : ℕ) : t - BitVec.ofNat 8 a - BitVec.ofNat 8 b = t - BitVec.ofNat 8 (a + b) := by
  apply BitVec.eq_of_toNat_eq
  rw [BitVec.toNat_sub, BitVec.toNat_sub, BitVec.toNat_sub, BitVec.toNat_ofNat, BitVec.toNat_ofNat, BitVec.toNat_ofNat]
  omega

/-- The phase goes on. -/
theorem phase_counted {r : Riot} (valid : Valid r) (a : ℕ) :
    (BitVec.ofNat 32 ((a + r.m_subTimer.toNat) % r.m_divider.toNat)).toNat =
      (a + r.m_subTimer.toNat) % r.m_divider.toNat := by
  have few := valid.few
  have low := Nat.mod_lt (a + r.m_subTimer.toNat) few.1
  rw [BitVec.toNat_ofNat]
  exact Nat.mod_eq_of_lt (by omega)

theorem phase_phase (r : Riot) (a b : ℕ) :
    (b + (a + r.m_subTimer.toNat) % r.m_divider.toNat) % r.m_divider.toNat =
      (a + b + r.m_subTimer.toNat) % r.m_divider.toNat := by
  rw [Nat.add_mod_mod]
  congr 1
  omega

theorem counted_counted {r : Riot} (valid : Valid r) (a b : ℕ) : counted (counted r a) b = counted r (a + b) := by
  have few := valid.few
  have phase := phase_counted valid a
  by_cases flag : r.m_flags.getLsbD 7 = true
  · have flag' : (counted r a).m_flags.getLsbD 7 = true := by
      rw [counted_flag flag]
      exact flag
    rw [counted_flag flag', counted_flag (n := a + b) flag, counted_flag flag]
    dsimp only
    rw [phase, phase_phase, byte_sub_sub]
  · by_cases expires : r.m_timer.toNat < completed r a
    · have later : r.m_timer.toNat < completed r (a + b) :=
        expires.trans_le (Nat.div_le_div_right (by omega))
      have enough : (r.m_timer.toNat + 1) * r.m_divider.toNat ≤ a + r.m_subTimer.toNat :=
        (Nat.le_div_iff_mul_le few.1).mp expires
      have summed : past r (a + b) = past r a + b := by
        unfold past
        omega
      have flag' : (counted r a).m_flags.getLsbD 7 = true := by
        rw [counted_expires flag expires]
        exact flag_set r.m_flags
      rw [counted_flag flag', counted_expires flag later, counted_expires flag expires]
      dsimp only
      rw [phase, phase_phase, byte_sub_sub, summed]
    · have some_ : completed r a ≤ r.m_timer.toNat := Nat.not_lt.mp expires
      have low := r.m_timer.isLt
      have timer : (BitVec.ofNat 8 (r.m_timer.toNat - completed r a)).toNat = r.m_timer.toNat - completed r a := by
        rw [BitVec.toNat_ofNat]
        omega
      -- whole intervals of the first span, and its phase
      have split : (a + r.m_subTimer.toNat) % r.m_divider.toNat + completed r a * r.m_divider.toNat =
          a + r.m_subTimer.toNat := by
        rw [Nat.mul_comm]
        exact Nat.mod_add_div _ _
      have more : completed (counted r a) b + completed r a = completed r (a + b) := by
        rw [counted_runs flag expires]
        unfold completed at split ⊢
        dsimp only
        rw [phase, ← Nat.add_mul_div_right _ _ few.1]
        congr 1
        omega
      have summed : past (counted r a) b = past r (a + b) := by
        rw [counted_runs flag expires]
        unfold past
        dsimp only
        rw [phase, timer]
        have whole : (r.m_timer.toNat - completed r a + 1) * r.m_divider.toNat + completed r a * r.m_divider.toNat =
            (r.m_timer.toNat + 1) * r.m_divider.toNat := by
          rw [← Nat.add_mul]
          congr 1
          omega
        omega
      have is_timer : (counted r a).m_timer.toNat = r.m_timer.toNat - completed r a := by
        rw [counted_runs flag expires]
        exact timer
      have clear : ¬(counted r a).m_flags.getLsbD 7 = true := by
        rw [counted_runs flag expires]
        exact flag
      by_cases later : r.m_timer.toNat < completed r (a + b)
      · have here : (counted r a).m_timer.toNat < completed (counted r a) b := by omega
        rw [counted_expires clear here, counted_expires flag later, summed, counted_runs flag expires]
        dsimp only
        rw [phase, phase_phase]
      · have here : ¬(counted r a).m_timer.toNat < completed (counted r a) b := by omega
        have left : (counted r a).m_timer.toNat - completed (counted r a) b =
            r.m_timer.toNat - completed r (a + b) := by
          omega
        rw [counted_runs clear here, counted_runs flag later, left, counted_runs flag expires]
        dsimp only
        rw [phase, phase_phase]

/-! ## Syncs -/

/-- The pins of port A have been as they are for two cycles. -/
def Settled (r : Riot) : Prop := r.m_pa7Sync = r.pa7 ∧ r.m_pa7Stable = r.pa7

/-- What counting leaves alone. -/
theorem counted_same (r : Riot) (n : ℕ) :
    (counted r n).m_divider = r.m_divider ∧ (counted r n).m_shift = r.m_shift ∧ (counted r n).pa7 = r.pa7 ∧
    (counted r n).m_pa7Sync = r.m_pa7Sync ∧ (counted r n).m_pa7Stable = r.m_pa7Stable ∧
    (counted r n).m_lastCycle = r.m_lastCycle ∧
    (counted r n).m_subTimer = BitVec.ofNat 32 ((n + r.m_subTimer.toNat) % r.m_divider.toNat) := by
  unfold counted
  dsimp only
  split
  · exact ⟨rfl, rfl, rfl, rfl, rfl, rfl, rfl⟩
  · split <;> exact ⟨rfl, rfl, rfl, rfl, rfl, rfl, rfl⟩

theorem detectEdge_settled {r : Riot} (settled : Settled r) : r.detectEdge = r := by
  obtain ⟨sync, stable⟩ := settled
  have no_edge : ¬(r.m_pa7Stable ≠ r.m_pa7Sync ∧ r.m_pa7Sync = r.m_edgePositive) :=
    fun edge => edge.1 (stable.trans sync.symm)
  unfold Riot.detectEdge
  dsimp only
  rw [if_neg no_edge, ← sync]
  exact congrArg (fun b => { r with m_pa7Stable := b }) (sync.trans stable.symm)

theorem counted_settled {r : Riot} (settled : Settled r) (n : ℕ) : Settled (counted r n) := by
  obtain ⟨-, -, pa7, sync, stable, -, -⟩ := counted_same r n
  unfold Settled
  rw [pa7, sync, stable]
  exact settled

theorem sync_eq {r : Riot} (valid : Valid r) (settled : Settled r) {c : BitVec 64}
    (after : r.m_lastCycle.toNat < c.toNat) (fits : c.toNat - r.m_lastCycle.toNat + r.m_subTimer.toNat < 2 ^ 32) :
    r.sync c = { counted r (c.toNat - r.m_lastCycle.toNat) with m_lastCycle := c } := by
  have cycles : (c - r.m_lastCycle).setWidth 32 = BitVec.ofNat 32 (c.toNat - r.m_lastCycle.toNat) := by
    apply BitVec.eq_of_toNat_eq
    rw [BitVec.toNat_setWidth, BitVec.toNat_sub_of_le (BitVec.le_def.mpr after.le), BitVec.toNat_ofNat]
  unfold Riot.sync
  rw [if_neg (by rw [BitVec.le_def]; omega), cycles, countTimer_eq valid fits,
    detectEdge_settled (counted_settled settled _)]

theorem sync_before {r : Riot} {c : BitVec 64} (before : c.toNat ≤ r.m_lastCycle.toNat) : r.sync c = r :=
  if_pos (BitVec.le_def.mpr before)

theorem counted_valid {r : Riot} (valid : Valid r) (n : ℕ) : Valid (counted r n) := by
  obtain ⟨divider, shift, -, -, -, -, sub⟩ := counted_same r n
  refine ⟨shift ▸ valid.small, ?_, ?_, ?_⟩
  · rw [divider, shift]
    exact valid.power
  · rw [divider, sub, phase_counted valid]
    exact Nat.mod_lt _ valid.few.1
  · unfold counted
    dsimp only
    split
    next flag => exact fun _ => flag
    next =>
      split
      next => exact fun _ => flag_set r.m_flags
      next => exact fun wrong => by cases wrong

theorem counted_lastCycle (r : Riot) (c : BitVec 64) (n : ℕ) :
    counted { r with m_lastCycle := c } n = { counted r n with m_lastCycle := c } := by
  by_cases flag : r.m_flags.getLsbD 7 = true
  · rw [counted_flag flag, counted_flag (by exact flag)]
  · by_cases expires : r.m_timer.toNat < completed r n
    · rw [counted_expires flag expires]
      exact counted_expires flag expires
    · rw [counted_runs flag expires]
      exact counted_runs flag expires

theorem sync_sync {r : Riot} (valid : Valid r) (settled : Settled r) {c c' : BitVec 64} (up : c.toNat < c'.toNat)
    (fits : c'.toNat - r.m_lastCycle.toNat + r.m_subTimer.toNat < 2 ^ 32) : (r.sync c).sync c' = r.sync c' := by
  by_cases after : r.m_lastCycle.toNat < c.toNat
  · have first := sync_eq valid settled after (by omega)
    obtain ⟨divider, -, -, -, -, -, sub⟩ := counted_same r (c.toNat - r.m_lastCycle.toNat)
    have phase : (counted r (c.toNat - r.m_lastCycle.toNat)).m_subTimer.toNat ≤
        c.toNat - r.m_lastCycle.toNat + r.m_subTimer.toNat := by
      rw [sub, phase_counted valid]
      exact Nat.mod_le _ _
    have valid' : Valid (r.sync c) := by
      have counted' := counted_valid valid (c.toNat - r.m_lastCycle.toNat)
      rw [first]
      exact ⟨counted'.small, counted'.power, counted'.phase, counted'.wrapped⟩
    have settled' : Settled (r.sync c) := by
      rw [first]
      exact counted_settled settled _
    have last : (r.sync c).m_lastCycle = c := by rw [first]
    have sub' : (r.sync c).m_subTimer = (counted r (c.toNat - r.m_lastCycle.toNat)).m_subTimer := by rw [first]
    rw [sync_eq valid' settled' (by rw [last]; exact up) (by rw [last, sub']; omega), last, first,
      sync_eq valid settled (after.trans up) fits]
    have whole : c.toNat - r.m_lastCycle.toNat + (c'.toNat - c.toNat) = c'.toNat - r.m_lastCycle.toNat := by omega
    rw [← whole, ← counted_counted valid, counted_lastCycle]
  · rw [sync_before (Nat.not_lt.mp after)]

/-! ## Runs -/

inductive Event where
  | reset
  | sync (c : BitVec 64)
  | read (addr : BitVec 16)
  | write (addr : BitVec 16) (value : Byte)
  | pins (portA portB : Byte)

def step (r : Riot) : Event → Riot
  | .reset => r.reset
  | .sync c => r.sync c
  | .read addr => (r.read addr).2
  | .write addr value => r.write addr value
  | .pins portA portB => { r with portA := portA, portB := portB }

/-- Only the timer's part counts. -/
theorem Valid.of_same {r r' : Riot} (valid : Valid r) (shift : r'.m_shift = r.m_shift)
    (divider : r'.m_divider = r.m_divider) (sub : r'.m_subTimer = r.m_subTimer)
    (wrapped : r'.m_wrappedThisCycle = true → r'.m_flags.getLsbD 7 = true) : Valid r' :=
  ⟨shift ▸ valid.small, by rw [divider, shift]; exact valid.power,
    by rw [divider, sub]; exact valid.phase, wrapped⟩

theorem interval_power (i : BitVec 2) : (Riot.interval i).2.toNat ≤ 10 ∧
    (Riot.interval i).1.toNat = 2 ^ (Riot.interval i).2.toNat ∧
    ((Riot.interval i).1 - 1).toNat + 1 = (Riot.interval i).1.toNat := by
  revert i
  decide

theorem setTimer_valid {r : Riot} (valid : Valid r) (value : Byte) (i : BitVec 2) : Valid (r.setTimer value i) := by
  obtain ⟨small, power, phase⟩ := interval_power i
  refine ⟨small, power, ?_, fun wrapped => ?_⟩
  · show ((Riot.interval i).1 - 1).toNat < (Riot.interval i).1.toNat
    omega
  · have was : r.m_wrappedThisCycle = true := wrapped
    show (if r.m_wrappedThisCycle then r.m_flags else r.m_flags &&& ~~~0x80).getLsbD 7 = true
    rw [if_pos was]
    exact valid.wrapped was

theorem countTimer_valid {r : Riot} (valid : Valid r) (cycles : BitVec 32) : Valid (r.countTimer cycles) := by
  have phase : ((cycles + r.m_subTimer) &&& (r.m_divider - 1)).toNat < r.m_divider.toNat := by
    have few := valid.few
    have one : (1 : BitVec 32).toNat = 1 := rfl
    have below : (r.m_divider - 1).toNat = r.m_divider.toNat - 1 := by
      rw [BitVec.toNat_sub, one]
      omega
    rw [BitVec.toNat_and, below]
    exact Nat.lt_of_le_of_lt Nat.and_le_right (by omega)
  unfold Riot.countTimer Riot.countCycles
  dsimp only
  split
  next flag => exact ⟨valid.small, valid.power, phase, fun _ => flag⟩
  next =>
    split
    next => exact ⟨valid.small, valid.power, phase, fun _ => flag_set r.m_flags⟩
    next => exact ⟨valid.small, valid.power, phase, fun wrong => by cases wrong⟩

theorem detectEdge_valid {r : Riot} (valid : Valid r) : Valid r.detectEdge := by
  have keeps : ∀ b : Byte, b.getLsbD 7 = true → (b ||| 0x40).getLsbD 7 = true := by decide
  refine valid.of_same rfl rfl rfl fun wrapped => ?_
  have flag := valid.wrapped wrapped
  unfold Riot.detectEdge
  dsimp only
  split
  next => exact keeps _ flag
  next => exact flag

theorem sync_valid {r : Riot} (valid : Valid r) (c : BitVec 64) : Valid (r.sync c) := by
  unfold Riot.sync
  split
  next => exact valid
  next =>
    have counted := detectEdge_valid (countTimer_valid valid ((c - r.m_lastCycle).setWidth 32))
    exact counted.of_same rfl rfl rfl counted.wrapped

theorem read_valid {r : Riot} (valid : Valid r) (addr : BitVec 16) : Valid (r.read addr).2 := by
  have keeps : ∀ b : Byte, b.getLsbD 7 = true → (b &&& ~~~0x40).getLsbD 7 = true := by decide
  unfold Riot.read
  dsimp only
  split
  next => exact valid
  next =>
    have intim : Valid (if r.m_wrappedThisCycle then r else { r with m_flags := r.m_flags &&& ~~~0x80 }) := by
      split
      next => exact valid
      next free => exact valid.of_same rfl rfl rfl fun wrapped => absurd wrapped free
    have flags : Valid { r with m_flags := r.m_flags &&& ~~~0x40 } :=
      valid.of_same rfl rfl rfl fun wrapped => keeps _ (valid.wrapped wrapped)
    split
    next => exact intim
    next => exact intim
    next => exact flags
    next => exact flags
    next => exact valid

theorem write_valid {r : Riot} (valid : Valid r) (addr : BitVec 16) (value : Byte) : Valid (r.write addr value) := by
  unfold Riot.write
  split
  next => exact valid.of_same rfl rfl rfl valid.wrapped
  next =>
    split
    next =>
      split
      next => exact setTimer_valid valid value _
      next => exact valid.of_same rfl rfl rfl valid.wrapped
    next => split <;> exact valid.of_same rfl rfl rfl valid.wrapped

theorem reset_valid (r : Riot) : Valid r.reset := by
  refine ⟨by show (10 : BitVec 32).toNat ≤ 10; decide,
    by show (1024 : BitVec 32).toNat = 2 ^ (10 : BitVec 32).toNat; decide,
    by show (0 : BitVec 32).toNat < (1024 : BitVec 32).toNat; decide, fun wrong => ?_⟩
  cases wrong

theorem run_valid (portA portB : Byte) (es : List Event) : Valid (es.foldl step (.new portA portB)) := by
  have from_valid : ∀ (es : List Event) (r : Riot), Valid r → Valid (es.foldl step r) := by
    intro es
    induction es with
    | nil => exact fun _ valid => valid
    | cons e rest ih =>
      intro r valid
      refine ih _ ?_
      cases e with
      | reset => exact reset_valid r
      | sync c => exact sync_valid valid c
      | read addr => exact read_valid valid addr
      | write addr value => exact write_valid valid addr value
      | pins => exact valid.of_same rfl rfl rfl valid.wrapped
  exact from_valid es _ (reset_valid _)

/-- The syncs end as the last of them alone. -/
theorem syncs_eq {r : Riot} (valid : Valid r) (settled : Settled r) {cs : List (BitVec 64)} {c : BitVec 64}
    (up : (cs ++ [c]).Pairwise fun a b => a.toNat < b.toNat)
    (fits : c.toNat - r.m_lastCycle.toNat + r.m_subTimer.toNat < 2 ^ 32) :
    (cs ++ [c]).foldl Riot.sync r = r.sync c := by
  induction cs using List.reverseRecOn generalizing c with
  | nil => rfl
  | append_singleton rest c' ih =>
    obtain ⟨earlier, -, below⟩ := List.pairwise_append.mp up
    have less : c'.toNat < c.toNat :=
      below c' (List.mem_append_right _ (List.mem_singleton_self c')) c (List.mem_singleton_self c)
    rw [List.foldl_append, ih earlier (by omega)]
    exact sync_sync valid settled less fits

/-- A write that sets the timer. -/
def SetsTimer (addr : BitVec 16) : Prop := addr &&& 0x200 ≠ 0 ∧ addr &&& 4 ≠ 0 ∧ addr &&& 0x10 ≠ 0

/-- The cycles of the interval that is set. -/
def period (addr : BitVec 16) : ℕ := (Riot.interval (addr.setWidth 2)).1.toNat

theorem write_sets {addr : BitVec 16} (sets : SetsTimer addr) (r : Riot) (value : Byte) :
    r.write addr value = r.setTimer value (addr.setWidth 2) := by
  unfold Riot.write
  rw [if_neg sets.1, if_pos sets.2.1, if_pos sets.2.2]

/-- A sync `n` cycles later. -/
theorem later_eq {r : Riot} (valid : Valid r) (settled : Settled r) {n : ℕ} (room : r.m_lastCycle.toNat + n < 2 ^ 64)
    (fits : n + r.m_subTimer.toNat < 2 ^ 32) (some_ : 0 < n) :
    r.sync (r.m_lastCycle + BitVec.ofNat 64 n) =
      { counted r n with m_lastCycle := r.m_lastCycle + BitVec.ofNat 64 n } := by
  have at_ : (r.m_lastCycle + BitVec.ofNat 64 n).toNat = r.m_lastCycle.toNat + n := by
    rw [BitVec.toNat_add, BitVec.toNat_ofNat]
    omega
  have elapsed : (r.m_lastCycle + BitVec.ofNat 64 n).toNat - r.m_lastCycle.toNat = n := by omega
  rw [sync_eq valid settled (by omega) (by omega), elapsed]

/-- The intervals that have ended `n` cycles after the timer is set; the first ends with the first
cycle. -/
def elapsed (addr : BitVec 16) (n : ℕ) : ℕ := (n + (period addr - 1)) / period addr

/-- The timer `n` cycles after it has been set to `v`. -/
structure Shows (r : Riot) (addr : BitVec 16) (v : Byte) (n : ℕ) : Prop where
  runs : elapsed addr n ≤ v.toNat → r.m_flags.getLsbD 7 = false ∧ r.m_timer.toNat = v.toNat - elapsed addr n
  expired : v.toNat < elapsed addr n →
    r.m_flags.getLsbD 7 = true ∧ r.m_timer = 0xFF - BitVec.ofNat 8 (n - (v.toNat * period addr + 1))

theorem set_sub (r : Riot) (v : Byte) (addr : BitVec 16) :
    (r.setTimer v (addr.setWidth 2)).m_subTimer.toNat = period addr - 1 := by
  obtain ⟨-, -, phase⟩ := interval_power (addr.setWidth 2)
  show ((Riot.interval (addr.setWidth 2)).1 - 1).toNat = _
  unfold period
  omega

theorem period_pos (addr : BitVec 16) : 0 < period addr := by
  obtain ⟨-, -, phase⟩ := interval_power (addr.setWidth 2)
  unfold period
  omega

/-- No cycle after a write. -/
theorem write_now {addr : BitVec 16} (sets : SetsTimer addr) (r : Riot) (v : Byte) {n : ℕ} (none_ : n = 0) :
    (r.write addr v).sync (r.m_lastCycle + BitVec.ofNat 64 n) = r.setTimer v (addr.setWidth 2) := by
  rw [write_sets sets, none_]
  refine sync_before ?_
  rw [BitVec.add_zero]
  exact le_rfl

theorem flag_clear : ∀ b : Byte, (b &&& ~~~0x80).getLsbD 7 = false := by decide

section
variable {r : Riot} (valid : Valid r) (settled : Settled r) {addr : BitVec 16} (sets : SetsTimer addr)
  (v : Byte) {n : ℕ} (room : r.m_lastCycle.toNat + n < 2 ^ 64) (fits : n + (period addr - 1) < 2 ^ 32)
include valid settled sets room fits

/-- The state `n` cycles after a write, in closed form. -/
theorem write_later (some_ : 0 < n) : (r.write addr v).sync (r.m_lastCycle + BitVec.ofNat 64 n) =
    { counted (r.setTimer v (addr.setWidth 2)) n with m_lastCycle := r.m_lastCycle + BitVec.ofNat 64 n } := by
  rw [write_sets sets]
  exact @later_eq (r.setTimer v (addr.setWidth 2)) (setTimer_valid valid v _) settled n room
    (by rw [set_sub]; exact fits) some_

theorem set_shows (free : r.m_wrappedThisCycle = false) :
    Shows ((r.write addr v).sync (r.m_lastCycle + BitVec.ofNat 64 n)) addr v n := by
  have sub := set_sub r v addr
  have positive := period_pos addr
  have clear : (r.setTimer v (addr.setWidth 2)).m_flags.getLsbD 7 = false := by
    show (if r.m_wrappedThisCycle then r.m_flags else r.m_flags &&& ~~~0x80).getLsbD 7 = false
    rw [free]
    exact flag_clear r.m_flags
  have intervals : completed (r.setTimer v (addr.setWidth 2)) n = elapsed addr n := by
    unfold completed
    rw [sub]
    rfl
  rcases Nat.eq_zero_or_pos n with none_ | some_
  · have stays := write_now sets r v none_
    have none_yet : elapsed addr n = 0 := by
      unfold elapsed
      exact Nat.div_eq_of_lt (by omega)
    rw [stays]
    refine ⟨fun _ => ⟨clear, ?_⟩, fun wrong => ?_⟩
    · rw [none_yet]
      rfl
    · rw [none_yet] at wrong
      exact absurd wrong (Nat.not_lt_zero _)
  · have not_flag : ¬(r.setTimer v (addr.setWidth 2)).m_flags.getLsbD 7 = true := by
      rw [clear]
      decide
    rw [write_later valid settled sets v room fits some_]
    refine ⟨fun runs => ?_, fun expired => ?_⟩
    · have still : ¬(r.setTimer v (addr.setWidth 2)).m_timer.toNat <
          completed (r.setTimer v (addr.setWidth 2)) n := by
        rw [intervals]
        exact Nat.not_lt.mpr runs
      rw [counted_runs not_flag still]
      refine ⟨clear, ?_⟩
      show (BitVec.ofNat 8 (v.toNat - completed _ n)).toNat = _
      have low := v.isLt
      rw [intervals, BitVec.toNat_ofNat]
      omega
    · have ended : (r.setTimer v (addr.setWidth 2)).m_timer.toNat < completed (r.setTimer v (addr.setWidth 2)) n := by
        rw [intervals]
        exact expired
      have left : past (r.setTimer v (addr.setWidth 2)) n = n - (v.toNat * period addr + 1) := by
        unfold past
        rw [sub]
        show n + (period addr - 1) - (v.toNat + 1) * period addr = _
        rw [Nat.succ_mul]
        omega
      rw [counted_expires not_flag ended, left]
      exact ⟨flag_set _, rfl⟩

/-- In the cycle of a wrap the flag stays, and the timer counts every cycle. -/
theorem set_in_wrap (wrapped : r.m_wrappedThisCycle = true) :
    ((r.write addr v).sync (r.m_lastCycle + BitVec.ofNat 64 n)).m_flags.getLsbD 7 = true ∧
      ((r.write addr v).sync (r.m_lastCycle + BitVec.ofNat 64 n)).m_timer = v - BitVec.ofNat 8 n := by
  have flag : (r.setTimer v (addr.setWidth 2)).m_flags.getLsbD 7 = true := by
    show (if r.m_wrappedThisCycle then r.m_flags else r.m_flags &&& ~~~0x80).getLsbD 7 = true
    rw [if_pos wrapped]
    exact valid.wrapped wrapped
  rcases Nat.eq_zero_or_pos n with none_ | some_
  · have stays := write_now sets r v none_
    rw [stays, none_]
    exact ⟨flag, (BitVec.sub_zero v).symm⟩
  · rw [write_later valid settled sets v room fits some_, counted_flag flag]
    exact ⟨flag, rfl⟩
end

/-- In every state that a run reaches with port A's pins settled: any syncs end as the last alone, and
a timer that is set outside of the cycle of a wrap shows what its intervals say. In the cycle of a
wrap it keeps its flag and counts every cycle. -/
theorem riot_timer {portA portB : Byte} {es : List Event} {r : Riot} (reached : es.foldl step (.new portA portB) = r)
    (settled : Settled r) :
    (∀ cs c, (cs ++ [c]).Pairwise (fun a b : BitVec 64 => a.toNat < b.toNat) →
      c.toNat - r.m_lastCycle.toNat + r.m_subTimer.toNat < 2 ^ 32 → (cs ++ [c]).foldl Riot.sync r = r.sync c) ∧
    ∀ addr v n, SetsTimer addr → r.m_lastCycle.toNat + n < 2 ^ 64 → n + (period addr - 1) < 2 ^ 32 →
      (r.m_wrappedThisCycle = false → Shows ((r.write addr v).sync (r.m_lastCycle + BitVec.ofNat 64 n)) addr v n) ∧
      (r.m_wrappedThisCycle = true →
        ((r.write addr v).sync (r.m_lastCycle + BitVec.ofNat 64 n)).m_flags.getLsbD 7 = true ∧
        ((r.write addr v).sync (r.m_lastCycle + BitVec.ofNat 64 n)).m_timer = v - BitVec.ofNat 8 n) := by
  have valid : Valid r := reached ▸ run_valid portA portB es
  exact ⟨fun cs c up fits => syncs_eq valid settled up fits, fun addr v n sets room fits =>
    ⟨set_shows valid settled sets v room fits, set_in_wrap valid settled sets v room fits⟩⟩

theorem riot_timer_new :
    ([5, 10] : List (BitVec 64)).foldl Riot.sync (.new 0xFF 0xFF) = Riot.sync (.new 0xFF 0xFF) 10 ∧
    Shows ((Riot.write (.new 0xFF 0xFF) 0x296 5).sync 2) 0x296 5 2 := by
  have looks := @riot_timer 0xFF 0xFF [] _ rfl ⟨by decide, by decide⟩
  refine ⟨looks.1 [5] 10 (by decide) (by decide), ?_⟩
  exact (looks.2 0x296 5 2 ⟨by decide, by decide, by decide⟩ (by decide) (by decide)).1 (by decide)

/-- The timer expires and is set again in the same cycle: it goes on with its flag, a count a cycle,
although one interval has ended only. -/
theorem set_in_the_wrap_cycle :
    Settled (Riot.sync (.new 0xFF 0xFF) 0x2AC00) ∧ SetsTimer 0x296 ∧ elapsed 0x296 2 = 1 ∧
      (((Riot.sync (.new 0xFF 0xFF) 0x2AC00).write 0x296 5).sync 0x2AC02).m_timer = 3 ∧
      (((Riot.sync (.new 0xFF 0xFF) 0x2AC00).write 0x296 5).sync 0x2AC02).m_flags.getLsbD 7 = true := by
  refine ⟨⟨by decide, by decide⟩, ⟨by decide, by decide, by decide⟩, ?_, ?_, ?_⟩
  · decide
  · decide
  · decide

end Mmemu.Guarantees.TimerLooks
