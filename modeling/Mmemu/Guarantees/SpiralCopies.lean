import Mmemu.Guarantees.DmaAddresses
import Mmemu.Source.F018bDma

/-!
# F018B DMA: spiral copies

A spiral copy should walk its destination by whole bytes. The controller adds the
pattern to an accumulator of 256ths of a byte, and lets the source take the first
step of the pattern too, as both accumulators begin at zero. Only a job of one
byte goes where the pattern says, and a few modulo jobs of two bytes whose row
end makes up for it.
-/
namespace Mmemu.Guarantees.SpiralCopies
open Mmemu.Source.F018bDma Mmemu.Guarantees.DmaAddresses

variable {ι : Type}

/-! ## The pattern -/

/-- A full turn with runs of `r` steps: right, down, left, up. -/
def turn (r : ℕ) : List ℤ :=
  List.replicate r 1 ++ List.replicate r 40 ++ List.replicate r (-1) ++ List.replicate r (-40)

/-- The first `n` turns, the runs growing by one after each. -/
def turns (n : ℕ) : List ℤ := (List.range n).flatMap fun k => turn (k + 1)

/-- Where the first `i` steps lead; `i` turns have more than `i` steps. -/
def walked (i : ℕ) : ℤ := ((turns i).take i).sum

example : (List.range 9).map walked = [0, 1, 41, 40, 0, 1, 2, 42, 82] := by decide

/-! ## Jobs under way -/

/-- A job just fetched. -/
structure Begun (b : Dma) : Prop where
  active : b.active = true
  srcAccum : b.src.accum = 0#32
  dstAccum : b.dst.accum = 0#32
  srcStep : b.src.step ≠ 0
  nonempty : 0 < b.bytesRemaining
  rows : b.moduloActive = true → b.colCounter = 0 ∧ b.rowCounter = 0 ∧ 0 < b.colLimit ∧
    0 < b.rowLimit ∧ b.bytesRemaining = b.colLimit * b.rowLimit

theorem nonzeroOr_pos (n : ℕ) {d : ℕ} (h : 0 < d) : 0 < nonzeroOr n d := by
  unfold nonzeroOr
  split <;> omega

theorem step_nonzero (rate : BitVec 16) : (if rate ≠ 0 then rate else 0x0100) ≠ 0#16 := by
  split
  · assumption
  · decide

theorem dropLine_cases (ch : Channel) :
    ch.dropLine.accum = ch.accum ∧ ch.dropLine.step = ch.step := by
  unfold Channel.dropLine
  split <;> exact ⟨rfl, rfl⟩

theorem beginJob_begun (s : Dma) (job : DmaJob) (f018b : Bool) :
    Begun { beginJob s job f018b with active := true } := by
  unfold beginJob
  dsimp only
  split
  next rows =>
    have cols := nonzeroOr_pos (job.count &&& 0xFF).toNat (d := 256) (by decide)
    have rows := nonzeroOr_pos (job.count >>> 8).toNat (d := 256) (by decide)
    refine ⟨rfl, (dropLine_cases _).1, (dropLine_cases _).1, ?_, Nat.mul_pos cols rows,
      fun _ => ⟨rfl, rfl, cols, rows, rfl⟩⟩
    dsimp only
    rw [(dropLine_cases _).2]
    exact step_nonzero _
  next plain =>
    exact ⟨rfl, rfl, rfl, step_nonzero _, length_pos job, fun on => absurd on plain⟩

theorem begun_begun (s : Dma) (mem : BitVec 28 → BitVec 8) : Begun (begun s mem) := by
  unfold begun
  rw [fetch_eq]
  exact beginJob_begun _ _ _

/-- A spiral copy without hold and line mode. -/
structure SpiralCopy (b : Dma) : Prop where
  op : b.currentOp = .copy
  spiral : b.spiralMode.enabled = true
  srcHold : b.src.hold = false
  dstHold : b.dst.hold = false
  srcLine : b.src.line.enabled = false
  dstLine : b.dst.line.enabled = false

/-- The same job without spiral mode. -/
def straight (b : Dma) : Dma := { b with spiralMode := .off }

/-- The job after `i` bytes. -/
def bytesOn (c : Wiring ι) (b : Dma) (w : World ι) (i : ℕ) : Dma := ((tick c)^[i] (b, w)).1

/-- Byte `i` is read where it is read without spiral mode, and goes where the
pattern has led by then. -/
def FollowsPattern (c : Wiring ι) (b : Dma) (w : World ι) : Prop :=
  ∀ i < b.bytesRemaining,
    busAddr (bytesOn c b w i).src.addr = busAddr (bytesOn c (straight b) w i).src.addr ∧
    busAddr (bytesOn c b w i).dst.addr = busAddr b.dst.base + BitVec.ofInt 28 (walked i)

/-! ## One byte -/

/-- A copied byte that is not the last. -/
theorem tick_copy (c : Wiring ι) {b : Dma} (w : World ι) (active : b.active = true)
    (op : b.currentOp = .copy) (some_ : b.bytesRemaining ≠ 0)
    (more : (stepModulo (stepChannels b)).bytesRemaining - 1 ≠ 0) :
    (tick c (b, w)).1 =
      { stepModulo (stepChannels b) with
        bytesRemaining := (stepModulo (stepChannels b)).bytesRemaining - 1 } := by
  have copied : (transferByte c b w).1 = true := by
    unfold transferByte
    rw [op]
    dsimp only
    rcases dmaRead c w b.src.addr b.src.io with ⟨byte, w⟩
    dsimp only
    split <;> rfl
  have same : { b with active := b.active && (transferByte c b w).1 } = b := by
    rw [copied, Bool.and_true]
  have awake : ¬(!b.active) = true := by
    rw [active]
    decide
  unfold tick tickOneByte
  rw [if_neg awake, if_neg some_]
  dsimp only
  rw [same]
  unfold finishByte
  dsimp only
  rw [if_pos more]

/-! ## The accumulators -/

theorem spiralStep_cases (phase : BitVec 8) :
    (phase.toNat < 2 ∧ (spiralStep phase = 1 ∨ spiralStep phase = 40)) ∨
    (¬phase.toNat < 2 ∧ (spiralStep phase = -1 ∨ spiralStep phase = -40)) := by
  unfold spiralStep
  split
  next at0 => exact .inl ⟨by omega, .inl rfl⟩
  next at1 => exact .inl ⟨by omega, .inr rfl⟩
  next at2 => exact .inr ⟨by omega, .inl rfl⟩
  next not0 not1 not2 =>
    have n0 : phase.toNat ≠ 0 := not0
    have n1 : phase.toNat ≠ 1 := not1
    exact .inr ⟨by omega, .inr rfl⟩

/-- The whole bytes of an accumulator after a step and a row end. -/
def bytesOf (step : BitVec 32) (row : BitVec 16) : BitVec 32 := (step + (row.setWidth 32 <<< 8)) >>> 8

theorem row_toNat (row : BitVec 16) : (row.setWidth 32 <<< 8).toNat = row.toNat * 256 := by
  have bound := row.isLt
  rw [BitVec.toNat_shiftLeft, BitVec.toNat_setWidth, Nat.shiftLeft_eq,
    Nat.mod_eq_of_lt (a := row.toNat) (by omega)]
  exact Nat.mod_eq_of_lt (by omega)

theorem bytesOf_toNat (step : BitVec 32) (row : BitVec 16) :
    (bytesOf step row).toNat = (step.toNat + row.toNat * 256) % 2 ^ 32 / 256 := by
  unfold bytesOf
  rw [BitVec.toNat_ushiftRight, BitVec.toNat_add, row_toNat, Nat.shiftRight_eq_div_pow]

/-- A step alone is less than a byte, or wraps below zero. -/
theorem spiral_bytes (phase : BitVec 8) :
    (bytesOf (spiralStep phase) 0).toNat = if phase.toNat < 2 then 0 else 2 ^ 24 - 1 := by
  rw [bytesOf_toNat]
  rcases spiralStep_cases phase with ⟨ahead, step | step⟩ | ⟨back, step | step⟩
  · rw [step, if_pos ahead]
    rfl
  · rw [step, if_pos ahead]
    rfl
  · rw [step, if_neg back]
    rfl
  · rw [step, if_neg back]
    rfl

/-- With a row end it comes to one byte for a single modulo value. -/
theorem spiral_row_bytes (phase : BitVec 8) (row : BitVec 16) :
    (bytesOf (spiralStep phase) row).toNat = 1 ↔ row.toNat = if phase.toNat < 2 then 1 else 2 := by
  have bound := row.isLt
  rw [bytesOf_toNat]
  rcases spiralStep_cases phase with ⟨ahead, step | step⟩ | ⟨back, step | step⟩
  · rw [step, if_pos ahead]
    change (1 + row.toNat * 256) % 2 ^ 32 / 256 = 1 ↔ _
    omega
  · rw [step, if_pos ahead]
    change (40 + row.toNat * 256) % 2 ^ 32 / 256 = 1 ↔ _
    omega
  · rw [step, if_neg back]
    change (2 ^ 32 - 1 + row.toNat * 256) % 2 ^ 32 / 256 = 1 ↔ _
    omega
  · rw [step, if_neg back]
    change (2 ^ 32 - 40 + row.toNat * 256) % 2 ^ 32 / 256 = 1 ↔ _
    omega

theorem busAddr_toNat_small {x : BitVec 32} (small : x.toNat < 2 ^ 28) : (busAddr x).toNat = x.toNat := by
  unfold busAddr
  rw [BitVec.toNat_setWidth]
  exact Nat.mod_eq_of_lt small

theorem busAddr_base_inj {base x y : BitVec 32} (hx : x.toNat < 2 ^ 28) (hy : y.toNat < 2 ^ 28) :
    busAddr (base + x) = busAddr (base + y) ↔ x.toNat = y.toNat := by
  rw [busAddr_add, busAddr_add, BitVec.add_right_inj, ← BitVec.toNat_inj, busAddr_toNat_small hx,
    busAddr_toNat_small hy]

theorem bytesOf_small (step : BitVec 32) (row : BitVec 16) : (bytesOf step row).toNat < 2 ^ 28 := by
  rw [bytesOf_toNat]
  omega

/-- The source's own step stays in the byte the spiral step leads to. -/
def SourceAlike (phase : BitVec 8) (dir : Bool) (step : BitVec 16) : Prop :=
  if phase.toNat < 2 then dir = false ∧ step.toNat < 256 else dir = true ∧ step.toNat ≤ 256

/-- A source step outside spiral mode. -/
def ownStep (dir : Bool) (step : BitVec 16) : BitVec 32 :=
  if dir then 0#32 - step.setWidth 32 else step.setWidth 32

theorem ownStep_toNat (dir : Bool) {step : BitVec 16} (nonzero : step ≠ 0) :
    (ownStep dir step).toNat = if dir then 2 ^ 32 - step.toNat else step.toNat := by
  have bound := step.isLt
  have positive : step.toNat ≠ 0 := fun h => nonzero (BitVec.eq_of_toNat_eq h)
  have wide : (step.setWidth 32).toNat = step.toNat := by
    rw [BitVec.toNat_setWidth]
    exact Nat.mod_eq_of_lt (by omega)
  unfold ownStep
  cases dir with
  | false => exact wide
  | true =>
    rw [if_pos rfl, if_pos rfl, BitVec.toNat_sub, wide]
    change (2 ^ 32 - step.toNat + 0) % 2 ^ 32 = _
    omega

theorem source_alike_iff (phase : BitVec 8) (row : BitVec 16) (dir : Bool) {step : BitVec 16}
    (nonzero : step ≠ 0) :
    (bytesOf (spiralStep phase) row).toNat = (bytesOf (ownStep dir step) row).toNat ↔
      SourceAlike phase dir step := by
  have bound := row.isLt
  have bound' := step.isLt
  have positive : step.toNat ≠ 0 := fun h => nonzero (BitVec.eq_of_toNat_eq h)
  rw [bytesOf_toNat, bytesOf_toNat, ownStep_toNat dir nonzero]
  unfold SourceAlike
  rcases spiralStep_cases phase with ⟨ahead, back⟩ | ⟨ahead, back⟩
  · have small : (spiralStep phase).toNat = 1 ∨ (spiralStep phase).toNat = 40 :=
      back.imp (congrArg BitVec.toNat) (congrArg BitVec.toNat)
    rw [if_pos ahead]
    cases dir with
    | false => simp only [Bool.false_eq_true, if_false, true_and]; omega
    | true => simp only [if_true, Bool.true_eq_false, false_and, iff_false]; omega
  · have large : (spiralStep phase).toNat = 2 ^ 32 - 1 ∨ (spiralStep phase).toNat = 2 ^ 32 - 40 :=
      back.imp (congrArg BitVec.toNat) (congrArg BitVec.toNat)
    rw [if_neg ahead]
    cases dir with
    | false => simp only [Bool.false_eq_true, if_false, false_and, iff_false]; omega
    | true => simp only [if_true, true_and]; omega

/-! ## The second byte -/

/-- What the end of the first row adds to a channel. -/
def rowOf (b : Dma) (ch : Channel) : BitVec 16 :=
  if b.moduloActive = true ∧ b.colLimit = 1 ∧ ch.modulo = true then b.moduloValue else 0

theorem addModulo_eq (ch : Channel) (value : BitVec 16) :
    ch.addModulo value =
      { ch with accum := ch.accum + ((if ch.modulo = true then value else 0).setWidth 32 <<< 8) } := by
  rcases ch with ⟨base, accum, step, dir, hold, io, modulo, line⟩
  cases modulo with
  | false => simp [Channel.addModulo]
  | true => rfl

theorem addr_bytesOf (ch : Channel) (step : BitVec 32) (row : BitVec 16)
    (accum : ch.accum = step + (row.setWidth 32 <<< 8)) : ch.addr = ch.base + bytesOf step row := by
  unfold Channel.addr bytesOf
  rw [accum]

theorem stepModulo_inRow {s : Dma} (h : s.moduloActive = true → s.colCounter + 1 < s.colLimit) :
    (stepModulo s).src = s.src ∧ (stepModulo s).dst = s.dst ∧
      (stepModulo s).bytesRemaining = s.bytesRemaining := by
  unfold stepModulo
  cases on : s.moduloActive with
  | false => exact ⟨rfl, rfl, rfl⟩
  | true =>
    rw [if_neg (by decide), if_pos (h on)]
    exact ⟨rfl, rfl, rfl⟩

theorem stepModulo_rowEnd {s : Dma} (on : s.moduloActive = true)
    (ends : ¬s.colCounter + 1 < s.colLimit) (more : s.rowCounter + 1 < s.rowLimit) :
    stepModulo s =
      { s with
        colCounter := 0, rowCounter := s.rowCounter + 1
        src := s.src.addModulo s.moduloValue, dst := s.dst.addModulo s.moduloValue } := by
  unfold stepModulo
  rw [if_neg (by rw [on]; decide), if_neg ends, if_pos more]

/-- Both channels after the first byte, by the steps they took. -/
theorem second_byte (c : Wiring ι) {b : Dma} (w : World ι) (begun : Begun b)
    (op : b.currentOp = .copy) (more : 2 ≤ b.bytesRemaining) {x y : BitVec 32}
    (src : (stepChannels b).src = { b.src with accum := x })
    (dst : (stepChannels b).dst = { b.dst with accum := y }) :
    (bytesOn c b w 1).src.addr = b.src.base + bytesOf x (rowOf b b.src) ∧
    (bytesOn c b w 1).dst.addr = b.dst.base + bytesOf y (rowOf b b.dst) := by
  have one : bytesOn c b w 1 = (tick c (b, w)).1 := rfl
  have some_ : b.bytesRemaining ≠ 0 := by omega
  by_cases ends : b.moduloActive = true ∧ b.colLimit = 1
  · obtain ⟨cols, rows, -, -, size⟩ := begun.rows ends.1
    have moreRows : b.rowCounter + 1 < b.rowLimit := by
      rw [ends.2, Nat.one_mul] at size
      omega
    have state := stepModulo_rowEnd (s := stepChannels b) ends.1
      (by change ¬b.colCounter + 1 < b.colLimit; omega) moreRows
    have left : (stepModulo (stepChannels b)).bytesRemaining - 1 ≠ 0 := by
      rw [state]
      change b.bytesRemaining - 1 ≠ 0
      omega
    rw [one, tick_copy c w begun.active op some_ left, state]
    dsimp only
    rw [src, dst, addModulo_eq, addModulo_eq]
    refine ⟨addr_bytesOf _ x _ ?_, addr_bytesOf _ y _ ?_⟩
    · simp [rowOf, ends, stepChannels]
    · simp [rowOf, ends, stepChannels]
  · have inRow : (stepChannels b).moduloActive = true →
        (stepChannels b).colCounter + 1 < (stepChannels b).colLimit := by
      intro on
      obtain ⟨cols, -, positive, -, -⟩ := begun.rows on
      have wide : b.colLimit ≠ 1 := fun one => ends ⟨on, one⟩
      change b.colCounter + 1 < b.colLimit
      omega
    obtain ⟨sameSrc, sameDst, sameLeft⟩ := stepModulo_inRow inRow
    have left : (stepModulo (stepChannels b)).bytesRemaining - 1 ≠ 0 := by
      rw [sameLeft]
      change b.bytesRemaining - 1 ≠ 0
      omega
    have noRow (ch : Channel) : rowOf b ch = 0 := if_neg fun h => ends ⟨h.1, h.2.1⟩
    rw [one, tick_copy c w begun.active op some_ left, noRow, noRow]
    dsimp only
    rw [sameSrc, sameDst, src, dst]
    exact ⟨addr_bytesOf _ x 0 (by simp), addr_bytesOf _ y 0 (by simp)⟩

theorem advance_enabled (sp : SpiralMode) : sp.advance.enabled = sp.enabled := by
  unfold SpiralMode.advance
  dsimp only
  split
  · split <;> rfl
  · rfl

/-- A channel that takes the spiral step. -/
theorem stepAddress_spiral {ch : Channel} {a : BitVec 32} {sp : SpiralMode}
    (hold : ch.hold = false) (line : ch.line.enabled = false) (on : sp.enabled = true)
    (same : ch.accum = a) :
    stepAddress ch a sp = ({ ch with accum := ch.accum + spiralStep sp.phase }, sp.advance) := by
  unfold stepAddress
  rw [if_neg (by rw [hold]; decide), if_neg (by rw [line]; decide),
    if_pos (by rw [on, decide_eq_true same]; rfl)]

/-- The first byte moves both channels by the pattern. -/
theorem stepChannels_first {b : Dma} (begun : Begun b) (h : SpiralCopy b) :
    (stepChannels b).src = { b.src with accum := spiralStep b.spiralMode.phase } ∧
    (stepChannels b).dst = { b.dst with accum := spiralStep b.spiralMode.advance.phase } := by
  have src := stepAddress_spiral h.srcHold h.srcLine h.spiral
    (begun.srcAccum.trans begun.dstAccum.symm)
  have dst := stepAddress_spiral (a := b.dst.accum) h.dstHold h.dstLine
    ((advance_enabled b.spiralMode).trans h.spiral) rfl
  unfold stepChannels
  rw [src]
  dsimp only
  rw [dst, begun.srcAccum, begun.dstAccum]
  rw [BitVec.zero_add, BitVec.zero_add]
  exact ⟨rfl, rfl⟩

/-- A channel that takes its own step. -/
theorem stepAddress_own {ch : Channel} {a : BitVec 32} {m : SpiralMode}
    (hold : ch.hold = false) (line : ch.line.enabled = false) (off : m.enabled = false) :
    stepAddress ch a m = ({ ch with accum := ch.accum + ownStep ch.dir ch.step }, m) := by
  unfold stepAddress ownStep
  rw [if_neg (by rw [hold]; decide), if_neg (by rw [line]; decide), if_neg (by simp [off])]
  cases ch.dir with
  | false => rfl
  | true =>
    rw [if_pos rfl, if_pos rfl, BitVec.sub_eq_add_neg, BitVec.sub_eq_add_neg, BitVec.zero_add]

theorem stepChannels_straight {b : Dma} (begun : Begun b) (h : SpiralCopy b) :
    (stepChannels (straight b)).src = { b.src with accum := ownStep b.src.dir b.src.step } ∧
    (stepChannels (straight b)).dst = { b.dst with accum := ownStep b.dst.dir b.dst.step } := by
  have src := stepAddress_own (a := b.dst.accum) (m := .off) h.srcHold h.srcLine rfl
  have dst := stepAddress_own (a := b.dst.accum) (m := .off) h.dstHold h.dstLine rfl
  unfold stepChannels straight
  dsimp only
  rw [src]
  dsimp only
  rw [dst, begun.srcAccum, begun.dstAccum, BitVec.zero_add, BitVec.zero_add]
  exact ⟨rfl, rfl⟩

theorem straight_begun {b : Dma} (begun : Begun b) : Begun (straight b) :=
  ⟨begun.active, begun.srcAccum, begun.dstAccum, begun.srcStep, begun.nonempty, begun.rows⟩

/-- What the pattern asks of the second byte. -/
theorem second_follows_iff (c : Wiring ι) {b : Dma} (w : World ι) (begun : Begun b)
    (h : SpiralCopy b) (more : 2 ≤ b.bytesRemaining) :
    (busAddr (bytesOn c b w 1).src.addr = busAddr (bytesOn c (straight b) w 1).src.addr ∧
      busAddr (bytesOn c b w 1).dst.addr = busAddr b.dst.base + BitVec.ofInt 28 (walked 1)) ↔
    SourceAlike b.spiralMode.phase b.src.dir b.src.step ∧
      (bytesOf (spiralStep b.spiralMode.advance.phase) (rowOf b b.dst)).toNat = 1 := by
  obtain ⟨src, dst⟩ := stepChannels_first begun h
  obtain ⟨ownSrc, ownDst⟩ := stepChannels_straight begun h
  have spiral := second_byte c w begun h.op more src dst
  have own := second_byte c w (straight_begun begun) h.op more ownSrc ownDst
  have target : busAddr b.dst.base + BitVec.ofInt 28 (walked 1) = busAddr (b.dst.base + 1#32) := by
    rw [busAddr_add]
    rfl
  rw [spiral.1, spiral.2, own.1, target]
  refine and_congr ?_ ?_
  · refine (busAddr_base_inj (bytesOf_small _ _) (bytesOf_small _ _)).trans ?_
    exact source_alike_iff b.spiralMode.phase (rowOf b b.src) b.src.dir begun.srcStep
  · exact busAddr_base_inj (bytesOf_small _ _) (by decide)

/-! ## The third byte -/

/-- The destination steps by the pattern wherever it has come to. -/
theorem stepChannels_dst {x : Dma} (h : SpiralCopy x) :
    ∃ phase, (stepChannels x).dst = { x.dst with accum := x.dst.accum + spiralStep phase } := by
  have on : (stepAddress x.src x.dst.accum x.spiralMode).2.enabled = true := by
    unfold stepAddress
    split
    · exact h.spiral
    · split
      · exact h.spiral
      · split
        · exact (advance_enabled _).trans h.spiral
        · split <;> exact h.spiral
  refine ⟨(stepAddress x.src x.dst.accum x.spiralMode).2.phase, ?_⟩
  have dst := stepAddress_spiral (a := x.dst.accum) h.dstHold h.dstLine on rfl
  unfold stepChannels
  dsimp only
  rw [dst]

/-- Two steps and two row ends stay within a few bytes. -/
theorem third_bytes (phase phase' : BitVec 8) {row : BitVec 16} (low : 1 ≤ row.toNat)
    (high : row.toNat ≤ 2) :
    ((spiralStep phase + (row.setWidth 32 <<< 8) + spiralStep phase' + (row.setWidth 32 <<< 8)) >>>
      8).toNat < 41 := by
  rw [BitVec.toNat_ushiftRight, BitVec.toNat_add, BitVec.toNat_add, BitVec.toNat_add, row_toNat,
    Nat.shiftRight_eq_div_pow]
  have near (p : BitVec 8) : (spiralStep p).toNat ≤ 40 ∨ 2 ^ 32 - 40 ≤ (spiralStep p).toNat := by
    rcases spiralStep_cases p with ⟨-, step | step⟩ | ⟨-, step | step⟩ <;> rw [step] <;> decide
  have first := near phase
  have second := near phase'
  have bound := (spiralStep phase).isLt
  have bound' := (spiralStep phase').isLt
  omega

/-- A job of single columns after `n` rows. -/
structure Column (b x : Dma) (n : ℕ) : Prop where
  active : x.active = true
  copy : SpiralCopy x
  on : x.moduloActive = true
  cols : x.colLimit = 1
  col : x.colCounter = 0
  row : x.rowCounter = n
  rows : x.rowLimit = b.rowLimit
  left : x.bytesRemaining = b.rowLimit - n
  base : x.dst.base = b.dst.base
  modulo : x.dst.modulo = true
  value : x.moduloValue = b.moduloValue

theorem stepChannels_copy {x : Dma} (h : SpiralCopy x) : SpiralCopy (stepChannels x) := by
  have kept (ch : Channel) (acc : BitVec 32) (sp : SpiralMode) (hold : ch.hold = false)
      (line : ch.line.enabled = false) (on : sp.enabled = true) :
      (stepAddress ch acc sp).1.hold = false ∧ (stepAddress ch acc sp).1.line.enabled = false ∧
        (stepAddress ch acc sp).2.enabled = true := by
    unfold stepAddress
    rw [if_neg (by rw [hold]; decide), if_neg (by rw [line]; decide)]
    split
    · exact ⟨hold, line, (advance_enabled sp).trans on⟩
    · split <;> exact ⟨hold, line, on⟩
  have src := kept x.src x.dst.accum x.spiralMode h.srcHold h.srcLine h.spiral
  have dst := kept x.dst x.dst.accum _ h.dstHold h.dstLine src.2.2
  exact ⟨h.op, dst.2.2, src.1, dst.1, src.2.1, dst.2.1⟩

theorem addModulo_keeps (ch : Channel) (value : BitVec 16) :
    (ch.addModulo value).hold = ch.hold ∧ (ch.addModulo value).line = ch.line := by
  rw [addModulo_eq]
  exact ⟨rfl, rfl⟩

/-- A row of one byte moves the destination by a step of the pattern and the
modulo. -/
theorem column_step (c : Wiring ι) {b x : Dma} {n : ℕ} (w : World ι) (h : Column b x n)
    (more : n + 1 < b.rowLimit) :
    Column b (tick c (x, w)).1 (n + 1) ∧
    ∃ phase, (tick c (x, w)).1.dst.accum =
      x.dst.accum + spiralStep phase + (b.moduloValue.setWidth 32 <<< 8) := by
  obtain ⟨phase, dst⟩ := stepChannels_dst h.copy
  have stepped := stepChannels_copy h.copy
  have state := stepModulo_rowEnd (s := stepChannels x) h.on
    (by change ¬x.colCounter + 1 < x.colLimit; rw [h.col, h.cols]; decide)
    (by change x.rowCounter + 1 < x.rowLimit; rw [h.row, h.rows]; exact more)
  have remaining := h.left
  have left : (stepModulo (stepChannels x)).bytesRemaining - 1 ≠ 0 := by
    rw [state]
    change x.bytesRemaining - 1 ≠ 0
    omega
  have next := tick_copy c w h.active h.copy.op (by omega) left
  rw [state] at next
  have srcKept := addModulo_keeps (stepChannels x).src (stepChannels x).moduloValue
  have dstKept := addModulo_keeps (stepChannels x).dst (stepChannels x).moduloValue
  have moved : (stepChannels x).dst.addModulo (stepChannels x).moduloValue =
      { x.dst with accum := x.dst.accum + spiralStep phase + (b.moduloValue.setWidth 32 <<< 8) } := by
    have value : (stepChannels x).moduloValue = b.moduloValue := h.value
    rw [addModulo_eq, dst, value]
    dsimp only
    rw [if_pos h.modulo]
  rw [next]
  refine ⟨⟨h.active, ⟨stepped.op, stepped.spiral, srcKept.1.trans stepped.srcHold,
    dstKept.1.trans stepped.dstHold, ?_, ?_⟩, h.on, h.cols, rfl, ?_, h.rows, ?_, ?_, ?_, h.value⟩,
    phase, ?_⟩
  · exact (congrArg LineMode.enabled srcKept.2).trans stepped.srcLine
  · exact (congrArg LineMode.enabled dstKept.2).trans stepped.dstLine
  · change x.rowCounter + 1 = n + 1
    rw [h.row]
  · change x.bytesRemaining - 1 = b.rowLimit - (n + 1)
    omega
  · exact (congrArg Channel.base moved).trans h.base
  · exact (congrArg Channel.modulo moved).trans h.modulo
  · exact congrArg Channel.accum moved

/-- In a job of single columns the pattern has left the destination behind by the
third byte. -/
theorem third_strays (c : Wiring ι) {b : Dma} (w : World ι) (begun : Begun b) (h : SpiralCopy b)
    (on : b.moduloActive = true) (cols : b.colLimit = 1) (modulo : b.dst.modulo = true)
    (low : 1 ≤ b.moduloValue.toNat) (high : b.moduloValue.toNat ≤ 2) (more : 3 ≤ b.bytesRemaining) :
    busAddr (bytesOn c b w 2).dst.addr ≠ busAddr b.dst.base + BitVec.ofInt 28 (walked 2) := by
  obtain ⟨col, row, -, -, size⟩ := begun.rows on
  rw [cols, Nat.one_mul] at size
  have start : Column b b 0 :=
    ⟨begun.active, h, on, cols, col, row, rfl, by omega, rfl, modulo, rfl⟩
  obtain ⟨once, phase, first⟩ := column_step c w start (by omega)
  obtain ⟨twice, phase', second⟩ := column_step c (tick c (b, w)).2 once (by omega)
  have state : bytesOn c b w 2 = (tick c ((tick c (b, w)).1, (tick c (b, w)).2)).1 := rfl
  have target : busAddr b.dst.base + BitVec.ofInt 28 (walked 2) = busAddr (b.dst.base + 41#32) := by
    rw [busAddr_add]
    rfl
  have few := third_bytes phase phase' low high
  rw [state, target]
  unfold Channel.addr
  rw [twice.base, second, first, begun.dstAccum, BitVec.zero_add, ne_eq,
    busAddr_base_inj (by omega) (by decide)]
  change _ ≠ 41
  omega

/-! ## The jobs that follow the pattern -/

/-- Two rows of one byte whose modulo makes up for the lost byte. -/
structure TwoRows (b : Dma) : Prop where
  modulo : b.moduloActive = true
  cols : b.colLimit = 1
  rows : b.rowLimit = 2
  dstModulo : b.dst.modulo = true
  value : b.moduloValue.toNat = if b.spiralMode.advance.phase.toNat < 2 then 1 else 2
  source : SourceAlike b.spiralMode.phase b.src.dir b.src.step

theorem first_follows (c : Wiring ι) {b : Dma} (w : World ι) (begun : Begun b) :
    busAddr (bytesOn c b w 0).src.addr = busAddr (bytesOn c (straight b) w 0).src.addr ∧
    busAddr (bytesOn c b w 0).dst.addr = busAddr b.dst.base + BitVec.ofInt 28 (walked 0) := by
  refine ⟨rfl, ?_⟩
  have start : b.dst.addr = b.dst.base + 0#32 := by
    unfold Channel.addr
    rw [begun.dstAccum]
    rfl
  change busAddr b.dst.addr = _
  rw [start, busAddr_add]
  rfl

theorem follows_iff (c : Wiring ι) {b : Dma} (w : World ι) (begun : Begun b) (h : SpiralCopy b) :
    FollowsPattern c b w ↔ b.bytesRemaining = 1 ∨ TwoRows b := by
  have nonempty := begun.nonempty
  constructor
  · intro follows
    by_cases single : b.bytesRemaining = 1
    · exact .inl single
    · have second := (second_follows_iff c w begun h (by omega)).mp (follows 1 (by omega))
      have rowEnd : b.moduloActive = true ∧ b.colLimit = 1 ∧ b.dst.modulo = true := by
        by_contra no
        have lost := second.2
        rw [rowOf, if_neg no, spiral_bytes] at lost
        split at lost <;> omega
      have value := second.2
      rw [rowOf, if_pos rowEnd, spiral_row_bytes] at value
      obtain ⟨-, -, -, -, size⟩ := begun.rows rowEnd.1
      rw [rowEnd.2.1, Nat.one_mul] at size
      have two : b.bytesRemaining = 2 := by
        by_contra three
        refine third_strays c w begun h rowEnd.1 rowEnd.2.1 rowEnd.2.2 ?_ ?_ (by omega)
          (follows 2 (by omega)).2
        · rw [value]
          split <;> omega
        · rw [value]
          split <;> omega
      exact .inr ⟨rowEnd.1, rowEnd.2.1, by omega, rowEnd.2.2, value, second.1⟩
  · rintro (single | rows)
    · intro i hi
      obtain rfl : i = 0 := by omega
      exact first_follows c w begun
    · obtain ⟨-, -, -, -, size⟩ := begun.rows rows.modulo
      rw [rows.cols, rows.rows] at size
      intro i hi
      obtain rfl | rfl : i = 0 ∨ i = 1 := by omega
      · exact first_follows c w begun
      · refine (second_follows_iff c w begun h (by omega)).mpr ⟨rows.source, ?_⟩
        rw [rowOf, if_pos ⟨rows.modulo, rows.cols, rows.dstModulo⟩, spiral_row_bytes]
        exact rows.value

/-- A spiral copy follows the pattern exactly when it copies a single byte, or two
rows of one byte whose modulo makes up for it. -/
theorem spiral_follows_iff (c : Wiring ι) (s : Dma) (w : World ι) (h : SpiralCopy (begun s w.mem)) :
    FollowsPattern c (begun s w.mem) w ↔
      (begun s w.mem).bytesRemaining = 1 ∨ TwoRows (begun s w.mem) :=
  follows_iff c w (begun_begun s w.mem) h

/-! ## Two bytes -/

/-- Option `$53`, then a copy of two bytes from `$0100` to `$0200`. -/
def twoBytes : List (BitVec 8) := [0x53, 0, 0, 2, 0, 0x00, 0x01, 0, 0x00, 0x02, 0, 0, 0]

def twoBytesWorld : World Unit := { mem := fun a => twoBytes.getD a.toNat 0, io := () }

def enhancedTrigger : Dma := resetOptions { init with enhancedMode := true }

theorem twoBytes_spiral : SpiralCopy (begun enhancedTrigger twoBytesWorld.mem) :=
  ⟨by decide, by decide, by decide, by decide, by decide,
    by decide⟩

theorem twoBytes_follows_iff :
    FollowsPattern noDevices (begun enhancedTrigger twoBytesWorld.mem) twoBytesWorld ↔
      (begun enhancedTrigger twoBytesWorld.mem).bytesRemaining = 1 ∨
        TwoRows (begun enhancedTrigger twoBytesWorld.mem) :=
  spiral_follows_iff noDevices enhancedTrigger twoBytesWorld twoBytes_spiral

theorem spiral_stays_behind :
    ¬∀ (s : Dma) (w : World Unit), SpiralCopy (begun s w.mem) →
      FollowsPattern noDevices (begun s w.mem) w := by
  intro always
  have follows := always enhancedTrigger twoBytesWorld twoBytes_spiral
  have two : (begun enhancedTrigger twoBytesWorld.mem).bytesRemaining ≠ 1 := by decide
  have noRows : (begun enhancedTrigger twoBytesWorld.mem).moduloActive ≠ true := by decide
  rcases (follows_iff noDevices twoBytesWorld (begun_begun _ _) twoBytes_spiral).mp follows with
    single | rows
  · exact two single
  · exact noRows rows.modulo

end Mmemu.Guarantees.SpiralCopies
