import Mmemu.Library.WordBytes
import Mmemu.Source.VeraPorts

/-!
# VERA data ports

A port that is used alone, with the line, polygon and affine modes off, steps through the VRAM as it
is set to, and its latch always holds the byte at its address.
-/
namespace Mmemu.Guarantees.DataPorts
open Mmemu.Library.WordBytes Mmemu.Source.VeraPorts

/-! ## One step -/

variable {v : Vera} {sel : ℕ}

/-- The address counts nibbles. -/
def Nibbles (v : Vera) (sel : ℕ) : Prop := v.m_fx4bitMode ∧ v.m_fxNibbleIncr sel ∧ v.increment sel = 0

/-- The address alternates between a byte and the one after it. -/
def Hops (v : Vera) (sel : ℕ) : Prop :=
  (sel = 1 ∧ v.m_fx16bitHop) ∧ (v.increment sel = 4 ∨ v.increment sel = 320)

instance : Decidable (Nibbles v sel) := by
  unfold Nibbles
  infer_instance

instance : Decidable (Hops v sel) := by
  unfold Hops
  infer_instance

/-- What a nibble adds to the address. -/
def nibbleStep (v : Vera) (sel : ℕ) : ℤ :=
  if v.m_fxNibbleBit sel then if v.m_ioInc sel &&& 1 = 0 then 1 else 0
  else if v.m_ioInc sel &&& 1 ≠ 0 then -1 else 0

/-- What an access adds to the address. -/
def stride (v : Vera) (sel : ℕ) : ℤ :=
  if Nibbles v sel then nibbleStep v sel
  else if Hops v sel then
    if v.m_fx16bitHopAlign.setWidth 32 = v.m_ioAddr sel &&& 3 then 1 else v.increment sel - 1
  else v.increment sel

/-- The state with the address of the next access. -/
def stepped (v : Vera) (sel : ℕ) : Vera :=
  { v with
    m_ioAddr := fun i =>
      Function.update v.m_ioAddr sel (v.m_ioAddr sel + BitVec.ofInt 32 (stride v sel)) i &&& 0x1FFFF
    m_fxNibbleBit :=
      if Nibbles v sel then Function.update v.m_fxNibbleBit sel (!v.m_fxNibbleBit sel) else v.m_fxNibbleBit }

theorem stepNibble_eq : v.stepNibble sel (v.m_ioInc sel) =
    { v with
      m_ioAddr := Function.update v.m_ioAddr sel (v.m_ioAddr sel + BitVec.ofInt 32 (nibbleStep v sel))
      m_fxNibbleBit := Function.update v.m_fxNibbleBit sel (!v.m_fxNibbleBit sel) } := by
  have stays : Function.update v.m_ioAddr sel (v.m_ioAddr sel + BitVec.ofInt 32 0) = v.m_ioAddr := by
    rw [show BitVec.ofInt 32 0 = 0#32 from rfl, BitVec.add_zero, Function.update_eq_self]
  unfold Vera.stepNibble nibbleStep
  cases v.m_fxNibbleBit sel
  · by_cases down : v.m_ioInc sel &&& 1 ≠ 0
    · rw [if_neg Bool.false_ne_true, if_pos down, if_neg Bool.false_ne_true, if_pos down]
      rfl
    · rw [if_neg Bool.false_ne_true, if_neg down, if_neg Bool.false_ne_true, if_neg down, stays]
      rfl
  · by_cases up : v.m_ioInc sel &&& 1 = 0
    · rw [if_pos rfl, if_pos up, if_pos rfl, if_pos up]
      rfl
    · rw [if_pos rfl, if_neg up, if_pos rfl, if_neg up, stays]
      rfl

theorem hop_eq {address : BitVec 32} (some_ : v.increment sel = 4 ∨ v.increment sel = 320) :
    v.hop address (v.increment sel) =
      if v.m_fx16bitHopAlign.setWidth 32 = address &&& 3 then 1 else v.increment sel - 1 := by
  unfold Vera.hop
  obtain four | many := some_
  · rw [four, if_pos rfl]
    rfl
  · rw [many, if_neg (by decide), if_pos rfl]
    rfl

theorem hop_of_not {address : BitVec 32} (none_ : ¬(v.increment sel = 4 ∨ v.increment sel = 320)) :
    v.hop address (v.increment sel) = v.increment sel := by
  obtain ⟨not_four, not_many⟩ := not_or.mp none_
  unfold Vera.hop
  rw [if_neg not_four, if_neg not_many]

theorem incAddress_eq : v.incAddress sel =
    { v with
      m_ioAddr := Function.update v.m_ioAddr sel (v.m_ioAddr sel + BitVec.ofInt 32 (stride v sel))
      m_fxNibbleBit :=
        if Nibbles v sel then Function.update v.m_fxNibbleBit sel (!v.m_fxNibbleBit sel) else v.m_fxNibbleBit } := by
  unfold Vera.incAddress stride
  by_cases nibbles : Nibbles v sel
  · have none_ : (if sel = 1 ∧ v.m_fx16bitHop then v.hop (v.m_ioAddr sel) (v.increment sel)
        else v.increment sel) = 0 := by
      rw [nibbles.2.2]
      split <;> rfl
    rw [none_, if_pos nibbles, if_pos nibbles]
    dsimp only
    rw [if_pos (show _ ∧ _ ∧ _ from nibbles), stepNibble_eq, Vera.addAddr]
    dsimp only
    rw [Function.update_self, Function.update_idem, show BitVec.ofInt 32 0 = 0#32 from rfl, BitVec.add_zero]
  · rw [if_neg nibbles, if_neg nibbles]
    dsimp only
    rw [if_neg (show ¬(_ ∧ _ ∧ _) from nibbles), Vera.addAddr]
    by_cases hops : Hops v sel
    · rw [if_pos hops.1, if_pos hops, hop_eq hops.2]
    · rw [if_neg hops]
      split
      next on => rw [hop_of_not fun some_ => hops ⟨on, some_⟩]
      next => rfl

theorem getAndIncAddress_eq (off : v.m_fxAddr1Mode = 0) (write : Bool) :
    v.getAndIncAddress sel write = (v.m_ioAddr sel, stepped v sel) := by
  have still : (v.incAddress sel).fxStep sel write = v.incAddress sel := by
    have mode : (v.incAddress sel).m_fxAddr1Mode = 0 := by
      rw [incAddress_eq]
      exact off
    unfold Vera.fxStep
    rw [mode, if_neg fun line => absurd line.2 (by decide), if_neg fun polygon => absurd polygon.1 (by decide),
      if_neg fun affine => absurd affine.2.1 (by decide)]
  unfold Vera.getAndIncAddress
  rw [still, incAddress_eq]
  rfl

/-! ## Accesses -/

/-- An access to the DATA register of a port. -/
inductive Access where
  | read
  | write (value : Byte)
  deriving DecidableEq, Repr

def access (sel : ℕ) (v : Vera) : Access → Vera
  | .read => (v.readData sel true).2
  | .write value => v.writeData sel value

def run (sel : ℕ) (v : Vera) (accesses : List Access) : Vera := accesses.foldl (access sel) v

/-- What an access leaves: everything that the port is set to. -/
structure Same (v v' : Vera) (sel : ℕ) : Prop where
  mode : v'.m_fxAddr1Mode = v.m_fxAddr1Mode
  fourBit : v'.m_fx4bitMode = v.m_fx4bitMode
  nibbleIncr : v'.m_fxNibbleIncr sel = v.m_fxNibbleIncr sel
  inc : v'.m_ioInc sel = v.m_ioInc sel
  hop : v'.m_fx16bitHop = v.m_fx16bitHop
  align : v'.m_fx16bitHopAlign = v.m_fx16bitHopAlign

/-- The latch holds the byte at the address. -/
def Coherent (v : Vera) (sel : ℕ) : Prop := v.m_ioRddata sel = v.videoSpaceRead (v.m_ioAddr sel)

theorem prefetch_coherent : Coherent (v.prefetch sel) sel := by
  unfold Coherent Vera.prefetch
  exact Function.update_self ..

/-- What one access does to the port. -/
structure Stepped (v v' : Vera) (sel : ℕ) : Prop where
  same : Same v v' sel
  addr : v'.m_ioAddr sel = (v.m_ioAddr sel + BitVec.ofInt 32 (stride v sel)) &&& 0x1FFFF
  bit : v'.m_fxNibbleBit sel = if Nibbles v sel then !v.m_fxNibbleBit sel else v.m_fxNibbleBit sel
  coherent : Coherent v' sel

theorem stepped_addr : (stepped v sel).m_ioAddr sel =
    (v.m_ioAddr sel + BitVec.ofInt 32 (stride v sel)) &&& 0x1FFFF := by
  unfold stepped
  dsimp only
  rw [Function.update_self]

theorem stepped_bit : (stepped v sel).m_fxNibbleBit sel =
    if Nibbles v sel then !v.m_fxNibbleBit sel else v.m_fxNibbleBit sel := by
  unfold stepped
  dsimp only
  split
  next => exact Function.update_self ..
  next => rfl

theorem fillCache_eq (addrNibble : Bool) (value : Byte) : ∃ cache nibble i, v.fillCache addrNibble value =
    { v with m_fxCache := cache, m_fxCacheNibbleIndex := nibble, m_fxCacheByteIndex := i } := by
  unfold Vera.fillCache
  dsimp only
  split
  · split <;> exact ⟨_, _, _, rfl⟩
  · exact ⟨_, _, _, rfl⟩

theorem readData_eq (off : v.m_fxAddr1Mode = 0) : v.readData sel true = (v.m_ioRddata sel,
    if v.m_fxCacheFill then ((stepped v sel).prefetch sel).fillCache (v.m_fxNibbleBit sel) (v.m_ioRddata sel)
    else (stepped v sel).prefetch sel) := by
  have latched : (if sel = 1 ∧ (stepped v sel).m_fxAddr1Mode = 3 then (stepped v sel).fxAffinePrefetch
      else (stepped v sel).prefetch sel) = (stepped v sel).prefetch sel :=
    if_neg fun affine => absurd (off.symm.trans affine.2) (by decide)
  unfold Vera.readData
  rw [if_neg (by decide), getAndIncAddress_eq off]
  dsimp only
  rw [latched]
  rfl

theorem writeData_eq (off : v.m_fxAddr1Mode = 0) (value : Byte) : v.writeData sel value =
    { stepped v sel with
      m_vram := v.dataStored (v.m_ioAddr sel) (v.m_fxNibbleBit sel) value : Vera }.prefetch sel := by
  unfold Vera.writeData
  rw [if_neg fun poking => poking.2 off, getAndIncAddress_eq off]
  rfl

theorem access_stepped (off : v.m_fxAddr1Mode = 0) (a : Access) : Stepped v (access sel v a) sel := by
  cases a with
  | read =>
    unfold access
    dsimp only
    rw [readData_eq off]
    dsimp only
    split
    next =>
      obtain ⟨cache, nibble, i, filled⟩ :=
        @fillCache_eq ((stepped v sel).prefetch sel) (v.m_fxNibbleBit sel) (v.m_ioRddata sel)
      rw [filled]
      exact ⟨⟨rfl, rfl, rfl, rfl, rfl, rfl⟩, stepped_addr, stepped_bit, @prefetch_coherent (stepped v sel) sel⟩
    next => exact ⟨⟨rfl, rfl, rfl, rfl, rfl, rfl⟩, stepped_addr, stepped_bit, prefetch_coherent⟩
  | write value =>
    unfold access
    dsimp only
    rw [writeData_eq off]
    exact ⟨⟨rfl, rfl, rfl, rfl, rfl, rfl⟩, stepped_addr, stepped_bit, prefetch_coherent⟩

/-! ## Runs -/

def address (v : Vera) (sel : ℕ) : ℤ := (v.m_ioAddr sel).toNat

/-- The place of a nibble: the high one of a byte comes first. -/
def nibbleIndex (v : Vera) (sel : ℕ) : ℤ := 2 * address v sel + if v.m_fxNibbleBit sel then 1 else 0

def direction (v : Vera) (sel : ℕ) : ℤ := if v.m_ioInc sel &&& 1 = 0 then 1 else -1

/-- Where the port is after `n` accesses from `s` on. -/
structure Visits (s t : Vera) (sel n : ℕ) : Prop where
  nibbles : Nibbles s sel → nibbleIndex t sel = (nibbleIndex s sel + direction s sel * n) % 0x40000
  hops : Hops s sel → address t sel = (address s sel + n / 2 * s.increment sel + n % 2) % 0x20000
  bytes : ¬Nibbles s sel → ¬Hops s sel → address t sel = (address s sel + n * s.increment sel) % 0x20000
  bit : ¬Nibbles s sel → t.m_fxNibbleBit sel = s.m_fxNibbleBit sel

/-- A port that is ready: its latch is filled, and for 16-bit hop the alignment is that of the address. -/
structure Ready (v : Vera) (sel : ℕ) : Prop where
  off : v.m_fxAddr1Mode = 0
  short : (v.m_ioAddr sel).toNat < 0x20000
  coherent : Coherent v sel
  aligned : sel = 1 ∧ v.m_fx16bitHop → v.m_fx16bitHopAlign.setWidth 32 = v.m_ioAddr sel &&& 3

theorem masked_add (a : BitVec 32) (n : ℤ) :
    (((a + BitVec.ofInt 32 n) &&& 0x1FFFF).toNat : ℤ) = (a.toNat + n) % 0x20000 := by
  have mask := Nat.and_two_pow_sub_one_eq_mod (a + BitVec.ofInt 32 n).toNat 17
  have wide := a.isLt
  rw [BitVec.toNat_and]
  change ((((a + BitVec.ofInt 32 n).toNat &&& (2 ^ 17 - 1) : ℕ)) : ℤ) = _
  rw [mask, BitVec.toNat_add, BitVec.toNat_ofInt]
  omega

theorem Same.trans {u : Vera} (one : Same v u sel) {w : Vera} (other : Same u w sel) : Same v w sel :=
  ⟨other.mode.trans one.mode, other.fourBit.trans one.fourBit, other.nibbleIncr.trans one.nibbleIncr,
    other.inc.trans one.inc, other.hop.trans one.hop, other.align.trans one.align⟩

section same
variable {s : Vera} (same : Same s v sel)
include same

theorem increment_same : v.increment sel = s.increment sel := by
  unfold Vera.increment
  rw [same.inc]

theorem nibbles_same : Nibbles v sel ↔ Nibbles s sel := by
  unfold Nibbles
  rw [same.fourBit, same.nibbleIncr, increment_same same]

theorem hops_same : Hops v sel ↔ Hops s sel := by
  unfold Hops
  rw [same.hop, increment_same same]

end same

theorem not_hops_of_nibbles (nibbles : Nibbles v sel) : ¬Hops v sel := by
  rintro ⟨-, four | many⟩
  · exact absurd (nibbles.2.2.symm.trans four) (by decide)
  · exact absurd (nibbles.2.2.symm.trans many) (by decide)

theorem Stepped.address_eq {v' : Vera} (step : Stepped v v' sel) :
    address v' sel = (address v sel + stride v sel) % 0x20000 := by
  unfold address
  rw [step.addr, masked_add]

theorem low_bits (a : BitVec 32) : (a &&& 3).toNat = a.toNat % 4 := by
  rw [BitVec.toNat_and]
  exact Nat.and_two_pow_sub_one_eq_mod a.toNat 2

/-- One nibble on, or back. -/
theorem Stepped.nibbleIndex_eq {v' : Vera} (step : Stepped v v' sel) (nibbles : Nibbles v sel) :
    nibbleIndex v' sel = (nibbleIndex v sel + direction v sel) % 0x40000 := by
  have addr := step.address_eq
  have bit := step.bit
  rw [if_pos nibbles] at bit
  unfold stride nibbleStep at addr
  rw [if_pos nibbles] at addr
  unfold nibbleIndex direction
  rw [bit]
  by_cases up : v.m_ioInc sel &&& 1 = 0
  · rw [if_pos up, if_neg (not_not.mpr up)] at addr
    rw [if_pos up]
    cases was : v.m_fxNibbleBit sel <;> rw [was] at addr <;>
      simp only [Bool.false_eq_true, if_false, if_true, Bool.not_false, Bool.not_true] at addr ⊢ <;> omega
  · rw [if_neg up, if_pos up] at addr
    rw [if_neg up]
    cases was : v.m_fxNibbleBit sel <;> rw [was] at addr <;>
      simp only [Bool.false_eq_true, if_false, if_true, Bool.not_false, Bool.not_true] at addr ⊢ <;> omega

theorem Visits.nibble {s t t' : Vera} {n : ℕ} (same : Same s t sel) (visits : Visits s t sel n)
    (step : Stepped t t' sel) (nibbles : Nibbles s sel) :
    nibbleIndex t' sel = (nibbleIndex s sel + direction s sel * (n + 1 : ℕ)) % 0x40000 := by
  have next := step.nibbleIndex_eq ((nibbles_same same).mpr nibbles)
  have way : direction t sel = direction s sel := by
    unfold direction
    rw [same.inc]
  rw [next, visits.nibbles nibbles, way, Nat.cast_add, Int.mul_add, Nat.cast_one, Int.mul_one]
  omega

theorem Visits.hop {s t t' : Vera} {n : ℕ} (ready : Ready s sel) (same : Same s t sel)
    (visits : Visits s t sel n) (step : Stepped t t' sel) (hops : Hops s sel) :
    address t' sel = (address s sel + (n + 1 : ℕ) / 2 * s.increment sel + (n + 1 : ℕ) % 2) % 0x20000 := by
  have addr := step.address_eq
  have before := visits.hops hops
  have hops' := (hops_same same).mpr hops
  have at_start : t.m_fx16bitHopAlign.setWidth 32 = t.m_ioAddr sel &&& 3 ↔ address s sel % 4 = address t sel % 4 := by
    rw [same.align, ready.aligned hops.1]
    unfold address
    refine ⟨fun same => ?_, fun same => BitVec.eq_of_toNat_eq ?_⟩
    · have low := congrArg BitVec.toNat same
      rw [low_bits, low_bits] at low
      omega
    · rw [low_bits, low_bits]
      omega
  unfold stride at addr
  rw [if_neg fun nibbles => not_hops_of_nibbles nibbles hops', if_pos hops', increment_same same] at addr
  -- the address is that of the start in its low bits at every second access
  obtain ⟨k, even | odd⟩ : ∃ k, n = 2 * k ∨ n = 2 * k + 1 := ⟨n / 2, by omega⟩
  · have parity : address s sel % 4 = address t sel % 4 := by
      obtain four | many := hops.2
      · rw [four] at before
        omega
      · rw [many] at before
        omega
    rw [if_pos (at_start.mpr parity)] at addr
    rw [show ((n + 1 : ℕ) : ℤ) / 2 = n / 2 by omega]
    omega
  · have parity : address s sel % 4 ≠ address t sel % 4 := by
      obtain four | many := hops.2
      · rw [four] at before
        omega
      · rw [many] at before
        omega
    rw [if_neg (mt at_start.mp parity)] at addr
    rw [show ((n + 1 : ℕ) : ℤ) / 2 = n / 2 + 1 by omega, Int.add_mul, Int.one_mul]
    omega

theorem Visits.byte {s t t' : Vera} {n : ℕ} (same : Same s t sel) (visits : Visits s t sel n)
    (step : Stepped t t' sel) (not_nibbles : ¬Nibbles s sel) (not_hops : ¬Hops s sel) :
    address t' sel = (address s sel + (n + 1 : ℕ) * s.increment sel) % 0x20000 := by
  have addr := step.address_eq
  have before := visits.bytes not_nibbles not_hops
  unfold stride at addr
  rw [if_neg (mt (nibbles_same same).mp not_nibbles), if_neg (mt (hops_same same).mp not_hops),
    increment_same same] at addr
  rw [Nat.cast_add, Int.add_mul]
  omega

/-- One more access. -/
theorem Visits.step {s t t' : Vera} {n : ℕ} (ready : Ready s sel) (same : Same s t sel) (visits : Visits s t sel n)
    (step : Stepped t t' sel) : Visits s t' sel (n + 1) := by
  refine ⟨visits.nibble same step, visits.hop ready same step, visits.byte same step, fun bytes => ?_⟩
  rw [step.bit, if_neg (mt (nibbles_same same).mp bytes)]
  exact visits.bit bytes

theorem Same.refl : Same v v sel := ⟨rfl, rfl, rfl, rfl, rfl, rfl⟩

theorem Visits.start (ready : Ready v sel) : Visits v v sel 0 := by
  have short := ready.short
  have here : address v sel % 0x20000 = address v sel := by
    unfold address
    omega
  refine ⟨fun _ => ?_, fun _ => ?_, fun _ _ => ?_, fun _ => rfl⟩
  · rw [Nat.cast_zero, Int.mul_zero, Int.add_zero]
    unfold nibbleIndex address
    split <;> omega
  · rw [Nat.cast_zero, Int.zero_ediv, Int.zero_mul, Int.zero_emod, Int.add_zero, Int.add_zero, here]
  · rw [Nat.cast_zero, Int.zero_mul, Int.add_zero, here]

/-- A run from a ready port: where it is, and that its latch is filled. -/
theorem run_visits {s : Vera} (ready : Ready s sel) (accesses : List Access) :
    Same s (run sel s accesses) sel ∧ Coherent (run sel s accesses) sel ∧
      Visits s (run sel s accesses) sel accesses.length := by
  induction accesses using List.reverseRecOn with
  | nil => exact ⟨.refl, ready.coherent, .start ready⟩
  | append_singleton before a ih =>
    obtain ⟨same, -, visits⟩ := ih
    have step := @access_stepped _ sel (same.mode.trans ready.off) a
    have last : run sel s (before ++ [a]) = access sel (run sel s before) a := by
      unfold run
      rw [List.foldl_append]
      rfl
    rw [last, List.length_append]
    exact ⟨same.trans step.same, step.coherent, visits.step ready same step⟩

/-! ## Setting the address -/

/-- Writes of the address registers, in any order. -/
def setAddress (v : Vera) (writes : List (AddrReg × Byte)) : Vera := writes.foldl (fun v w => v.writeAddr w.1 w.2) v

/-- The bits that a write of an address register takes, and those that it keeps. -/
theorem written_low (a mask b : BitVec 32) : (a &&& mask ||| b) &&& 3 = a &&& (mask &&& 3) ||| b &&& 3 := by
  rw [BitVec.and_or_distrib_right, BitVec.and_assoc]

theorem written_short {a mask b : BitVec 32} (masked : mask.toNat < 0x20000) (short : b.toNat < 0x20000) :
    (a &&& mask ||| b).toNat < 0x20000 := by
  rw [BitVec.toNat_or]
  exact Nat.or_lt_two_pow (n := 17) (Nat.lt_of_le_of_lt (toNat_and_le a mask) masked) short

theorem setAddr_ready {w : Vera} {a : BitVec 32} (off : w.m_fxAddr1Mode = 0) (short : a.toNat < 0x20000)
    (aligned : sel = 1 ∧ w.m_fx16bitHop → w.m_fx16bitHopAlign.setWidth 32 = a &&& 3) :
    Ready ((w.setAddr sel a).prefetch sel) sel := by
  have here : ((w.setAddr sel a).prefetch sel).m_ioAddr sel = a :=
    show Function.update w.m_ioAddr sel a sel = a from Function.update_self ..
  refine ⟨off, ?_, prefetch_coherent, fun hop => ?_⟩
  · rw [here]
    exact short
  · rw [here]
    exact aligned hop

/-- The low bits come with the first register, and with the alignment. -/
theorem writeAddr_low (off : v.m_fxAddr1Mode = 0) (value : Byte) (selected : v.m_ioAddrsel = sel) :
    Ready (v.writeAddr .ADDRx_L value) sel ∧ (v.writeAddr .ADDRx_L value).m_ioAddrsel = sel := by
  subst selected
  unfold Vera.writeAddr
  dsimp only
  rw [if_neg fun poly => absurd (off.symm.trans poly.2.2.1) (by decide)]
  refine ⟨setAddr_ready off (written_short (by decide) ?_) fun hop => ?_, rfl⟩
  · have wide := value.isLt
    rw [BitVec.toNat_setWidth]
    omega
  · rw [written_low, (by decide : (0x1FF00#32 &&& 3) = 0#32), BitVec.and_zero, BitVec.zero_or]
    dsimp only
    rw [if_pos (And.symm hop), BitVec.setWidth_and]
    rfl

/-- The other registers keep the low bits. -/
theorem writeAddr_ready (ready : Ready v sel) (selected : v.m_ioAddrsel = sel) (reg : AddrReg) (value : Byte) :
    Ready (v.writeAddr reg value) sel ∧ (v.writeAddr reg value).m_ioAddrsel = sel := by
  cases reg with
  | ADDRx_L => exact writeAddr_low ready.off value selected
  | ADDRx_M =>
    subst selected
    have wide := value.isLt
    refine ⟨setAddr_ready ready.off (written_short (by decide) ?_) fun hop => ?_, rfl⟩
    · rw [BitVec.toNat_shiftLeft, BitVec.toNat_setWidth, Nat.shiftLeft_eq]
      omega
    · have none_ : value.setWidth 32 <<< 8 &&& 3 = 0#32 := by
        refine BitVec.eq_of_toNat_eq ?_
        rw [low_bits, BitVec.toNat_shiftLeft, BitVec.toNat_setWidth, Nat.shiftLeft_eq]
        change _ = 0
        omega
      rw [written_low, (by decide : (0x100FF#32 &&& 3) = 3), none_, BitVec.or_zero]
      exact ready.aligned hop
  | ADDRx_H =>
    subst selected
    have bit := toNat_and_le value 1
    refine ⟨setAddr_ready ready.off (written_short (by decide) ?_) fun hop => ?_, rfl⟩
    · rw [BitVec.toNat_shiftLeft, BitVec.toNat_setWidth, Nat.shiftLeft_eq]
      change _ ≤ 1 at bit
      omega
    · have none_ : (value &&& 1).setWidth 32 <<< 16 &&& 3 = 0#32 := by
        refine BitVec.eq_of_toNat_eq ?_
        rw [low_bits, BitVec.toNat_shiftLeft, BitVec.toNat_setWidth, Nat.shiftLeft_eq]
        change _ = 0
        omega
      rw [written_low, (by decide : (0x0FFFF#32 &&& 3) = 3), none_, BitVec.or_zero]
      exact ready.aligned hop

theorem setAddress_keeps (ready : Ready v sel) (selected : v.m_ioAddrsel = sel) (writes : List (AddrReg × Byte)) :
    Ready (setAddress v writes) sel := by
  induction writes generalizing v with
  | nil => exact ready
  | cons w rest ih =>
    obtain ⟨ready', selected'⟩ := writeAddr_ready ready selected w.1 w.2
    exact ih ready' selected'

/-- The line, polygon and affine modes stay off, and the port selected. -/
theorem writeAddr_same (reg : AddrReg) (value : Byte) :
    (v.writeAddr reg value).m_fxAddr1Mode = v.m_fxAddr1Mode ∧ (v.writeAddr reg value).m_ioAddrsel = v.m_ioAddrsel := by
  cases reg with
  | ADDRx_L =>
    unfold Vera.writeAddr
    dsimp only
    split <;> exact ⟨rfl, rfl⟩
  | ADDRx_M => exact ⟨rfl, rfl⟩
  | ADDRx_H => exact ⟨rfl, rfl⟩

theorem setAddress_ready (off : v.m_fxAddr1Mode = 0) (selected : v.m_ioAddrsel = sel)
    {writes : List (AddrReg × Byte)} {value : Byte} (low : (.ADDRx_L, value) ∈ writes) :
    Ready (setAddress v writes) sel := by
  induction writes generalizing v with
  | nil => cases low
  | cons w rest ih =>
    obtain here | later := List.mem_cons.mp low
    · rw [← here]
      obtain ⟨ready, selected'⟩ := writeAddr_low off value selected
      exact setAddress_keeps ready selected' rest
    · obtain ⟨mode, same⟩ := @writeAddr_same v w.1 w.2
      exact ih (mode.trans off) (same.trans selected) later

/-- What the port does in `t`, after `n` accesses from `s` on: the access that comes next is to the byte at its
address, a read and a peek give that byte, and a write stores there. -/
structure Serves (s t : Vera) (sel n : ℕ) : Prop where
  visits : Visits s t sel n
  read : (t.readData sel true).1 = t.videoSpaceRead (t.m_ioAddr sel)
  peek : (t.readData sel false).1 = (t.readData sel true).1
  write : ∀ value, (t.writeData sel value).m_vram = t.dataStored (t.m_ioAddr sel) (t.m_fxNibbleBit sel) value

theorem data_ports (off : v.m_fxAddr1Mode = 0) (selected : v.m_ioAddrsel = sel)
    {writes : List (AddrReg × Byte)} {value : Byte} (low : (.ADDRx_L, value) ∈ writes) (accesses : List Access) :
    Serves (setAddress v writes) (run sel (setAddress v writes) accesses) sel accesses.length := by
  have ready := setAddress_ready off selected low
  obtain ⟨same, coherent, visits⟩ := run_visits ready accesses
  have off' := same.mode.trans ready.off
  refine ⟨visits, ?_, ?_, fun value => ?_⟩
  · rw [readData_eq off']
    exact coherent
  · rw [readData_eq off']
    rfl
  · rw [writeData_eq off']
    rfl

/-- A port in 16-bit hop. -/
def hopping (sel : ℕ) : Vera := { Vera.videoReset fun _ => 0 with m_fx16bitHop := true, m_ioAddrsel := sel }

theorem data_ports_hopping :
    Serves (setAddress (hopping 1) [(.ADDRx_H, 0x30), (.ADDRx_L, 2)])
      (run 1 (setAddress (hopping 1) [(.ADDRx_H, 0x30), (.ADDRx_L, 2)]) [.read, .write 5, .read]) 1 3 :=
  data_ports rfl rfl (List.mem_cons_of_mem _ (List.mem_cons_self ..)) _

/-- Port 0 goes on by four, not to the byte after. -/
theorem port0_does_not_hop :
    ¬address (run 0 (setAddress (hopping 0) [(.ADDRx_L, 0), (.ADDRx_H, 0x30)]) [.read]) 0 =
      (address (setAddress (hopping 0) [(.ADDRx_L, 0), (.ADDRx_H, 0x30)]) 0 + 1) % 0x20000 := by
  decide

end Mmemu.Guarantees.DataPorts
