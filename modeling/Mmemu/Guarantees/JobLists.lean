import Mathlib.Tactic.IntervalCases
import Mmemu.Guarantees.DmaAddresses
import Mmemu.Library.MemoryWrites
import Mmemu.Library.WordBytes
import Mmemu.Source.F018bDma

/-!
# F018B DMA: what an option list sets

Every option sets one byte or one switch, whatever stands between it and the job.
The settings a list leaves are therefore those of the last value given for each
of them.
-/
namespace Mmemu.Guarantees.JobOptions
open Mmemu.Source.F018bDma Mmemu.Library.LastWins Mmemu.Library.LittleEndian

/-- An option byte with its argument. -/
abbrev Opt := BitVec 8 × BitVec 8

/-- The argument an option gives for the setting `key`. -/
def argOf (key : BitVec 8) (o : Opt) : Option (BitVec 8) := if o.1 = key then some o.2 else none

theorem argOf_other {key code : BitVec 8} (arg : BitVec 8) (h : code ≠ key) :
    argOf key (code, arg) = none := if_neg h

/-- Options `$06` and `$07` switch transparency off and on. -/
def opaqueOf (o : Opt) : Option Bool :=
  if o.1 = 0x06 then some true else if o.1 = 0x07 then some false else none

/-- Options `$0A` and `$0B` name the revision of the job; `true` is F018A. -/
def revisionOf (o : Opt) : Option Bool :=
  if o.1 = 0x0A then some true else if o.1 = 0x0B then some false else none

/-! ## Bytes of a setting -/

/-- A setting that is replaced as a whole. -/
def put {α : Type} (_ v : α) : α := v

theorem put_replaces {α : Type} : Replaces (put (α := α)) := fun _ _ _ => rfl

/-- Megabytes, and the fact that one was given. -/
def setMB (_ : InheritMB) (arg : BitVec 8) : InheritMB := { mb := arg, isSet := true }

theorem setMB_replaces : Replaces setMB := fun _ _ _ => rfl

/-- Spiral mode begins anew. -/
def setSpiral (_ : SpiralMode) (_ : BitVec 8) : SpiralMode := { SpiralMode.off with enabled := true }

theorem setSpiral_replaces : Replaces setSpiral := fun _ _ _ => rfl

/-- Bit 8 of the transparent value makes every byte opaque. -/
def setOpaque (_ : BitVec 16) (off : Bool) : BitVec 16 := if off then 0x100 else 0

theorem setOpaque_replaces : Replaces setOpaque := fun _ _ _ => rfl

/-- A part of a word is set by masking it out and putting the argument there. -/
def setPart {n : ℕ} (keep : BitVec n) (place : BitVec 8 → BitVec n) (w : BitVec n) (arg : BitVec 8) :
    BitVec n := (w &&& keep) ||| place arg

theorem setPart_replaces {n : ℕ} (keep : BitVec n) (place : BitVec 8 → BitVec n)
    (cleared : ∀ arg, place arg &&& keep = 0#n) : Replaces (setPart keep place) := by
  intro w v v'
  unfold setPart
  rw [BitVec.and_or_distrib_right, cleared, BitVec.or_zero, BitVec.and_assoc, BitVec.and_self]

theorem setPart_independent {n : ℕ} (keep keep' : BitVec n) (place place' : BitVec 8 → BitVec n)
    (inside : ∀ arg, place arg &&& keep' = place arg)
    (inside' : ∀ arg, place' arg &&& keep = place' arg) :
    Independent (setPart keep place) (setPart keep' place') := by
  intro w v v'
  unfold setPart
  rw [BitVec.and_or_distrib_right, BitVec.and_or_distrib_right, inside, inside', BitVec.and_assoc,
    BitVec.and_assoc, BitVec.and_comm keep, BitVec.or_assoc, BitVec.or_assoc,
    BitVec.or_comm (place v)]

theorem setLo_replaces : Replaces setLo :=
  setPart_replaces 0xFF00 (fun arg => arg.setWidth 16) (low_and_clear (by decide))

theorem setHi_replaces : Replaces setHi :=
  setPart_replaces 0x00FF (fun arg => arg.setWidth 16 <<< 8) (placed_and_clear 8 (by decide))

theorem setLo_setHi : Independent setLo setHi :=
  setPart_independent 0xFF00 0x00FF (fun arg => arg.setWidth 16)
    (fun arg => arg.setWidth 16 <<< 8) (low_and_set (by decide)) (placed_and_set 8 (by decide))

theorem setCol8_replaces : Replaces setCol8 :=
  setPart_replaces 0xFF0000 (fun arg => arg.setWidth 32 <<< 8) (placed_and_clear 8 (by decide))

theorem setCol16_replaces : Replaces setCol16 :=
  setPart_replaces 0x00FF00 (fun arg => arg.setWidth 32 <<< 16)
    (placed_and_clear 16 (by decide))

theorem setCol8_setCol16 : Independent setCol8 setCol16 :=
  setPart_independent 0xFF0000 0x00FF00
    (fun arg => arg.setWidth 32 <<< 8) (fun arg => arg.setWidth 32 <<< 16)
    (placed_and_set 8 (by decide)) (placed_and_set 16 (by decide))

/-- The slope accumulator, by its low and its high byte. -/
def setAccumLo : BitVec 32 → BitVec 8 → BitVec 32 := setPart 0xFF00 fun arg => arg.setWidth 32
def setAccumHi : BitVec 32 → BitVec 8 → BitVec 32 := setPart 0x00FF fun arg => arg.setWidth 32 <<< 8

theorem setAccumLo_replaces : Replaces setAccumLo :=
  setPart_replaces _ _ (low_and_clear (by decide))

theorem setAccumHi_replaces : Replaces setAccumHi :=
  setPart_replaces _ _ (placed_and_clear 8 (by decide))

theorem setAccumLo_setAccumHi : Independent setAccumLo setAccumHi :=
  setPart_independent _ _ _ _ (low_and_set (by decide)) (placed_and_set 8 (by decide))

/-! ## Line options -/

/-- A line mode after settings were given for it, under the keys `base + $7` to
`base + $F`. -/
def lineSettled (base : BitVec 8) (lm : LineMode) (given : BitVec 8 → Option (BitVec 8)) : LineMode :=
  { xCol := settle setCol16 (settle setCol8 lm.xCol (given (base + 7))) (given (base + 8))
    yCol := settle setCol16 (settle setCol8 lm.yCol (given (base + 9))) (given (base + 10))
    slope := settle setHi (settle setLo lm.slope (given (base + 11))) (given (base + 12))
    slopeAccum :=
      settle setAccumHi (settle setAccumLo lm.slopeAccum (given (base + 13))) (given (base + 14))
    slopeType := settle put lm.slopeType (given (base + 15)) }

theorem lineSettled_idle (base : BitVec 8) (lm : LineMode) {given : BitVec 8 → Option (BitVec 8)}
    (idle : ∀ k : Fin 16, 7 ≤ k.val → given (base + BitVec.ofNat 8 k.val) = none) :
    lineSettled base lm given = lm := by
  have at7 : given (base + 7) = none := idle 7 (by decide)
  have at8 : given (base + 8) = none := idle 8 (by decide)
  have at9 : given (base + 9) = none := idle 9 (by decide)
  have at10 : given (base + 10) = none := idle 10 (by decide)
  have at11 : given (base + 11) = none := idle 11 (by decide)
  have at12 : given (base + 12) = none := idle 12 (by decide)
  have at13 : given (base + 13) = none := idle 13 (by decide)
  have at14 : given (base + 14) = none := idle 14 (by decide)
  have at15 : given (base + 15) = none := idle 15 (by decide)
  unfold lineSettled
  rw [at7, at8, at9, at10, at11, at12, at13, at14, at15]
  rfl

theorem dst_codes : ∀ code : BitVec 8, 0x87#8 ≤ code ∧ code ≤ 0x8F#8 →
    code = 0x87 ∨ code = 0x88 ∨ code = 0x89 ∨ code = 0x8A ∨ code = 0x8B ∨ code = 0x8C ∨ code = 0x8D
      ∨ code = 0x8E ∨ code = 0x8F := by
  intro code inside
  bv_omega

theorem src_codes : ∀ code : BitVec 8, 0x97#8 ≤ code ∧ code ≤ 0x9F#8 →
    code = 0x97 ∨ code = 0x98 ∨ code = 0x99 ∨ code = 0x9A ∨ code = 0x9B ∨ code = 0x9C ∨ code = 0x9D
      ∨ code = 0x9E ∨ code = 0x9F := by
  intro code inside
  bv_omega

theorem dstLine_settled (lm : LineMode) (o : Opt) :
    (if 0x87#8 ≤ o.1 ∧ o.1 ≤ 0x8F#8 then lm.option o.1 o.2 else lm) =
      lineSettled 0x80 lm (fun key => argOf key o) := by
  rcases o with ⟨code, arg⟩
  split
  next within =>
    rcases dst_codes code within with rfl | rfl | rfl | rfl | rfl | rfl | rfl | rfl | rfl <;>
      simp [LineMode.option, lineSettled, argOf, setAccumLo, setAccumHi, setPart, put]
  next outside =>
    have keys : ∀ k : Fin 16, 7 ≤ k.val →
        0x87#8 ≤ 0x80 + BitVec.ofNat 8 k.val ∧ 0x80 + BitVec.ofNat 8 k.val ≤ 0x8F#8 := by decide
    refine (lineSettled_idle 0x80 lm ?_).symm
    intro k hk
    refine argOf_other arg ?_
    rintro rfl
    exact outside (keys k hk)

theorem srcLine_settled (lm : LineMode) (o : Opt) :
    (if 0x97#8 ≤ o.1 ∧ o.1 ≤ 0x9F#8 then lm.option o.1 o.2 else lm) =
      lineSettled 0x90 lm (fun key => argOf key o) := by
  rcases o with ⟨code, arg⟩
  split
  next within =>
    rcases src_codes code within with rfl | rfl | rfl | rfl | rfl | rfl | rfl | rfl | rfl <;>
      simp [LineMode.option, lineSettled, argOf, setAccumLo, setAccumHi, setPart, put]
  next outside =>
    have keys : ∀ k : Fin 16, 7 ≤ k.val →
        0x97#8 ≤ 0x90 + BitVec.ofNat 8 k.val ∧ 0x90 + BitVec.ofNat 8 k.val ≤ 0x9F#8 := by decide
    refine (lineSettled_idle 0x90 lm ?_).symm
    intro k hk
    refine argOf_other arg ?_
    rintro rfl
    exact outside (keys k hk)

/-- Settings of a line mode that are given more than once. -/
theorem foldl_lineSettled (base : BitVec 8) {σ : Type} {step : σ → Opt → σ} {v : σ → LineMode}
    (each : ∀ s o, v (step s o) = lineSettled base (v s) (fun key => argOf key o)) (s : σ)
    (opts : List Opt) :
    v (opts.foldl step s) =
      lineSettled base (v s) (fun key => lastGiven (argOf key) opts) := by
  have xCol := foldl_settle₂ setCol8_replaces setCol16_replaces setCol8_setCol16
    (o := fun s => (v s).xCol) (fun s o => congrArg LineMode.xCol (each s o)) s opts
  have yCol := foldl_settle₂ setCol8_replaces setCol16_replaces setCol8_setCol16
    (o := fun s => (v s).yCol) (fun s o => congrArg LineMode.yCol (each s o)) s opts
  have slope := foldl_settle₂ setLo_replaces setHi_replaces setLo_setHi
    (o := fun s => (v s).slope) (fun s o => congrArg LineMode.slope (each s o)) s opts
  have slopeAccum := foldl_settle₂ setAccumLo_replaces setAccumHi_replaces setAccumLo_setAccumHi
    (o := fun s => (v s).slopeAccum) (fun s o => congrArg LineMode.slopeAccum (each s o)) s opts
  have slopeType := foldl_settle put_replaces
    (o := fun s => (v s).slopeType) (fun s o => congrArg LineMode.slopeType (each s o)) s opts
  dsimp only at xCol yCol slope slopeAccum slopeType
  rcases whole : v (opts.foldl step s) with ⟨x, y, sl, acc, ty⟩
  rw [whole] at xCol yCol slope slopeAccum slopeType
  unfold lineSettled
  rw [LineMode.mk.injEq]
  exact ⟨xCol, yCol, slope, slopeAccum, slopeType⟩

/-! ## The settings of the controller -/

theorem flagOption_idle {code : BitVec 8} (h06 : code ≠ 0x06) (h07 : code ≠ 0x07)
    (h53 : code ≠ 0x53) (s : Dma) (job : DmaJob) : (flagOption code s job).1 = s := by
  unfold flagOption
  split
  next same => exact absurd (BitVec.eq_of_toNat_eq same) h06
  next same => exact absurd (BitVec.eq_of_toNat_eq same) h07
  · rfl
  · rfl
  next same => exact absurd (BitVec.eq_of_toNat_eq same) h53
  · rfl

/-- Outside `$86` an option with an argument reaches the line modes only. -/
theorem paramOption_lines {code : BitVec 8} (h86 : code ≠ 0x86) (arg : BitVec 8) (s : Dma)
    (job : DmaJob) :
    (paramOption code arg s job).1 =
      { s with
        dst.line := if 0x87#8 ≤ code ∧ code ≤ 0x8F#8 then s.dst.line.option code arg else s.dst.line
        src.line :=
          if 0x97#8 ≤ code ∧ code ≤ 0x9F#8 then s.src.line.option code arg else s.src.line } := by
  have early {k : BitVec 8} (h : code.toNat = k.toNat) (low : k < 0x87#8) :
      ¬(0x87#8 ≤ code ∧ code ≤ 0x8F#8) ∧ ¬(0x97#8 ≤ code ∧ code ≤ 0x9F#8) := by
    rw [BitVec.eq_of_toNat_eq h]
    refine ⟨fun within => ?_, fun within => ?_⟩
    · exact absurd within.1 (BitVec.not_le.mpr low)
    · exact absurd (BitVec.le_trans (by decide) within.1) (BitVec.not_le.mpr low)
  unfold paramOption
  split
  next same => simp [early (k := 0x80#8) same (by decide)]
  next same => simp [early (k := 0x81#8) same (by decide)]
  next same => simp [early (k := 0x82#8) same (by decide)]
  next same => simp [early (k := 0x83#8) same (by decide)]
  next same => simp [early (k := 0x84#8) same (by decide)]
  next same => simp [early (k := 0x85#8) same (by decide)]
  next same => exact absurd (BitVec.eq_of_toNat_eq same) h86
  · split
    next within =>
      have apart : ¬(0x97#8 ≤ code ∧ code ≤ 0x9F#8) := fun above =>
        absurd (BitVec.le_trans above.1 within.2) (by decide)
      simp [apart]
    · split <;> rfl

theorem argOf_low {code : BitVec 8} (plain : code &&& 0x80 = 0#8) (arg : BitVec 8) {k : BitVec 8}
    (high : k &&& 0x80 ≠ 0#8) : argOf k (code, arg) = none := by
  refine argOf_other arg ?_
  rintro rfl
  exact high plain

theorem opaqueOf_none {code : BitVec 8} (h06 : code ≠ 0x06) (h07 : code ≠ 0x07) (arg : BitVec 8) :
    opaqueOf (code, arg) = none := by
  unfold opaqueOf
  rw [if_neg h06, if_neg h07]

theorem bit8_set (transparency : BitVec 16) : (transparency ||| 0x100) &&& 0x100 = 0x100#16 := by
  ext i hi
  interval_cases i <;> simp

theorem bit8_cleared (transparency : BitVec 16) : (transparency &&& 0xFF) &&& 0x100 = 0#16 := by
  rw [BitVec.and_assoc]
  simp

/-- What one option does to the settings: it gives one of them a value, or none. -/
structure Settled (x y : Options) (o : Opt) : Prop where
  transparencyVal : y.transparencyVal = settle put x.transparencyVal (argOf 0x86 o)
  spiralMode : y.spiralMode = settle setSpiral x.spiralMode (argOf 0x53 o)
  srcLine : y.srcLine = lineSettled 0x90 x.srcLine (fun key => argOf key o)
  dstLine : y.dstLine = lineSettled 0x80 x.dstLine (fun key => argOf key o)
  transparency : y.transparency &&& 0x100 = settle setOpaque (x.transparency &&& 0x100) (opaqueOf o)

theorem lines_low {code : BitVec 8} (plain : code &&& 0x80 = 0#8) (arg : BitVec 8) (lm : LineMode) :
    lineSettled 0x80 lm (fun key => argOf key (code, arg)) = lm ∧
    lineSettled 0x90 lm (fun key => argOf key (code, arg)) = lm := by
  have keys : ∀ k : Fin 16, 7 ≤ k.val → (0x80 + BitVec.ofNat 8 k.val) &&& 0x80#8 ≠ 0#8 ∧
      (0x90 + BitVec.ofNat 8 k.val) &&& 0x80#8 ≠ 0#8 := by decide
  exact ⟨lineSettled_idle _ _ fun k hk => argOf_low plain arg (keys k hk).1,
    lineSettled_idle _ _ fun k hk => argOf_low plain arg (keys k hk).2⟩

theorem step_flag (x : Options) {code : BitVec 8} (plain : code &&& 0x80 = 0#8) (arg : BitVec 8) :
    Settled x (x.step (code, arg)) (code, arg) := by
  have lines := lines_low plain arg
  have value := argOf_low plain arg (k := 0x86) (by decide)
  have state : x.step (code, arg) = optionsOf (flagOption code (withOptions init x)
      (newJob (withOptions init x))).1 := by
    unfold Options.step stateOption
    rw [if_neg (not_not.mpr plain)]
  by_cases h06 : code = 0x06
  · subst h06
    rw [state]
    refine ⟨by rw [value]; rfl, by simp [argOf, flagOption, withOptions, optionsOf],
      (lines _).2.symm, (lines _).1.symm, ?_⟩
    exact bit8_set x.transparency
  · by_cases h07 : code = 0x07
    · subst h07
      rw [state]
      refine ⟨by rw [value]; rfl, by simp [argOf, flagOption, withOptions, optionsOf],
        (lines _).2.symm, (lines _).1.symm, ?_⟩
      exact bit8_cleared x.transparency
    · have switch : opaqueOf (code, arg) = none := opaqueOf_none h06 h07 arg
      by_cases h53 : code = 0x53
      · subst h53
        rw [state]
        exact ⟨by rw [value]; rfl, rfl, (lines _).2.symm, (lines _).1.symm, by rw [switch]; rfl⟩
      · have spiral : argOf 0x53 (code, arg) = none := argOf_other arg h53
        rw [state, flagOption_idle h06 h07 h53]
        exact ⟨by rw [value]; rfl, by rw [spiral]; rfl, (lines _).2.symm, (lines _).1.symm,
          by rw [switch]; rfl⟩

theorem step_param (x : Options) {code : BitVec 8} (param : code &&& 0x80 ≠ 0#8) (arg : BitVec 8) :
    Settled x (x.step (code, arg)) (code, arg) := by
  have low {k : BitVec 8} (h : k &&& 0x80 = 0#8) : code ≠ k := by
    rintro rfl
    exact param h
  have switch : opaqueOf (code, arg) = none :=
    opaqueOf_none (low (by decide)) (low (by decide)) arg
  have spiral : argOf 0x53 (code, arg) = none := argOf_other arg (low (by decide))
  have state : x.step (code, arg) = optionsOf (paramOption code arg (withOptions init x)
      (newJob (withOptions init x))).1 := by
    unfold Options.step stateOption
    rw [if_pos param]
  have src := srcLine_settled x.srcLine (code, arg)
  have dst := dstLine_settled x.dstLine (code, arg)
  by_cases h86 : code = 0x86
  · subst h86
    rw [state]
    exact ⟨rfl, by rw [spiral]; rfl, src, dst, by rw [switch]; rfl⟩
  · have value : argOf 0x86 (code, arg) = none := argOf_other arg h86
    rw [state, paramOption_lines h86]
    exact ⟨by rw [value]; rfl, by rw [spiral]; rfl, src, dst, by rw [switch]; rfl⟩

theorem step_settled (x : Options) (o : Opt) : Settled x (x.step o) o := by
  by_cases plain : o.1 &&& 0x80 = 0#8
  · exact step_flag x plain o.2
  · exact step_param x plain o.2

/-! ## The settings of the job -/

/-- What one option does to the job record: a byte of a skip rate, or the
revision. -/
structure JobSettled (job job' : DmaJob) (o : Opt) : Prop where
  srcSkipRate : job'.srcSkipRate =
    settle setHi (settle setLo job.srcSkipRate (argOf 0x82 o)) (argOf 0x83 o)
  dstSkipRate : job'.dstSkipRate =
    settle setHi (settle setLo job.dstSkipRate (argOf 0x84 o)) (argOf 0x85 o)
  useF018A : job'.useF018A = settle put job.useF018A (revisionOf o)

theorem revisionOf_none {code : BitVec 8} (h0A : code ≠ 0x0A) (h0B : code ≠ 0x0B) (arg : BitVec 8) :
    revisionOf (code, arg) = none := by
  unfold revisionOf
  rw [if_neg h0A, if_neg h0B]

theorem jobOption_flag (job : DmaJob) {code : BitVec 8} (plain : code &&& 0x80 = 0#8)
    (arg : BitVec 8) : JobSettled job (jobOption job (code, arg)) (code, arg) := by
  have state : jobOption job (code, arg) = (flagOption code init job).2 := by
    unfold jobOption
    rw [if_neg (not_not.mpr plain)]
  have rates : argOf 0x82 (code, arg) = none ∧ argOf 0x83 (code, arg) = none ∧
      argOf 0x84 (code, arg) = none ∧ argOf 0x85 (code, arg) = none :=
    ⟨argOf_low plain arg (by decide), argOf_low plain arg (by decide),
      argOf_low plain arg (by decide), argOf_low plain arg (by decide)⟩
  obtain ⟨h82, h83, h84, h85⟩ := rates
  rw [state]
  by_cases h0A : code = 0x0A
  · subst h0A
    exact ⟨by rw [h82, h83]; rfl, by rw [h84, h85]; rfl, rfl⟩
  · by_cases h0B : code = 0x0B
    · subst h0B
      exact ⟨by rw [h82, h83]; rfl, by rw [h84, h85]; rfl, rfl⟩
    · have idle : (flagOption code init job).2 = job := by
        unfold flagOption
        split
        · rfl
        · rfl
        next same => exact absurd (BitVec.eq_of_toNat_eq same) h0A
        next same => exact absurd (BitVec.eq_of_toNat_eq same) h0B
        · rfl
        · rfl
      rw [idle]
      exact ⟨by rw [h82, h83]; rfl, by rw [h84, h85]; rfl, by rw [revisionOf_none h0A h0B]; rfl⟩

theorem jobOption_param (job : DmaJob) {code : BitVec 8} (param : code &&& 0x80 ≠ 0#8)
    (arg : BitVec 8) : JobSettled job (jobOption job (code, arg)) (code, arg) := by
  have state : jobOption job (code, arg) = (paramOption code arg init job).2 := by
    unfold jobOption
    rw [if_pos param]
  have low {k : BitVec 8} (h : k &&& 0x80 = 0#8) : code ≠ k := by
    rintro rfl
    exact param h
  have revision : revisionOf (code, arg) = none :=
    revisionOf_none (low (by decide)) (low (by decide)) arg
  rw [state]
  by_cases h82 : code = 0x82
  · subst h82
    exact ⟨rfl, rfl, rfl⟩
  · by_cases h83 : code = 0x83
    · subst h83
      exact ⟨rfl, rfl, rfl⟩
    · by_cases h84 : code = 0x84
      · subst h84
        exact ⟨rfl, rfl, rfl⟩
      · by_cases h85 : code = 0x85
        · subst h85
          exact ⟨rfl, rfl, rfl⟩
        · have n82 : argOf 0x82 (code, arg) = none := argOf_other arg h82
          have n83 : argOf 0x83 (code, arg) = none := argOf_other arg h83
          have n84 : argOf 0x84 (code, arg) = none := argOf_other arg h84
          have n85 : argOf 0x85 (code, arg) = none := argOf_other arg h85
          have idle : (paramOption code arg init job).2.srcSkipRate = job.srcSkipRate ∧
              (paramOption code arg init job).2.dstSkipRate = job.dstSkipRate ∧
              (paramOption code arg init job).2.useF018A = job.useF018A := by
            unfold paramOption
            split
            · exact ⟨rfl, rfl, rfl⟩
            · exact ⟨rfl, rfl, rfl⟩
            next same => exact absurd (BitVec.eq_of_toNat_eq same) h82
            next same => exact absurd (BitVec.eq_of_toNat_eq same) h83
            next same => exact absurd (BitVec.eq_of_toNat_eq same) h84
            next same => exact absurd (BitVec.eq_of_toNat_eq same) h85
            · exact ⟨rfl, rfl, rfl⟩
            · split
              · exact ⟨rfl, rfl, rfl⟩
              · split <;> exact ⟨rfl, rfl, rfl⟩
          refine ⟨?_, ?_, ?_⟩
          · rw [idle.1, n82, n83]
            rfl
          · rw [idle.2.1, n84, n85]
            rfl
          · rw [idle.2.2, revision]
            rfl

theorem jobOption_settled (job : DmaJob) (o : Opt) : JobSettled job (jobOption job o) o := by
  by_cases plain : o.1 &&& 0x80 = 0#8
  · exact jobOption_flag job plain o.2
  · exact jobOption_param job plain o.2

/-! ## Lists -/

/-- The settings after a list of options, by the last value given for each. -/
def inForce (x : Options) (opts : List Opt) : Options :=
  { transparency := settle setOpaque (x.transparency &&& 0x100) (lastGiven opaqueOf opts)
    transparencyVal := settle put x.transparencyVal (lastGiven (argOf 0x86) opts)
    spiralMode := settle setSpiral x.spiralMode (lastGiven (argOf 0x53) opts)
    srcLine := lineSettled 0x90 x.srcLine (fun key => lastGiven (argOf key) opts)
    dstLine := lineSettled 0x80 x.dstLine (fun key => lastGiven (argOf key) opts) }

/-- Transparency counts by bit 8 alone. -/
theorem foldl_options (x : Options) (opts : List Opt) :
    { opts.foldl Options.step x with
      transparency := (opts.foldl Options.step x).transparency &&& 0x100 } = inForce x opts := by
  have transparency := foldl_settle setOpaque_replaces
    (o := fun x : Options => x.transparency &&& 0x100) (fun x o => (step_settled x o).transparency)
    x opts
  have transparencyVal := foldl_settle put_replaces (o := Options.transparencyVal)
    (fun x o => (step_settled x o).transparencyVal) x opts
  have spiralMode := foldl_settle setSpiral_replaces (o := Options.spiralMode)
    (fun x o => (step_settled x o).spiralMode) x opts
  have srcLine := foldl_lineSettled 0x90 (v := Options.srcLine)
    (fun x o => (step_settled x o).srcLine) x opts
  have dstLine := foldl_lineSettled 0x80 (v := Options.dstLine)
    (fun x o => (step_settled x o).dstLine) x opts
  unfold inForce
  rw [← transparency, ← transparencyVal, ← spiralMode, ← srcLine, ← dstLine]

/-- Megabytes given for one side, by the last value under its key. -/
theorem foldl_inherit (key : BitVec 8) (i : InheritMB) (opts : List Opt) :
    opts.foldl (InheritMB.step key) i = settle setMB i (lastGiven (argOf key) opts) := by
  refine foldl_settle setMB_replaces (o := fun i : InheritMB => i) ?_ i opts
  intro i o
  unfold InheritMB.step argOf
  split <;> rfl

/-- A skip rate of one byte a step, unless given. -/
def skipRate (lo hi : BitVec 8) (opts : List Opt) : BitVec 16 :=
  settle setHi (settle setLo 0x0100 (lastGiven (argOf lo) opts)) (lastGiven (argOf hi) opts)

theorem optionJob_settled (opts : List Opt) :
    (optionJob opts).srcSkipRate = skipRate 0x82 0x83 opts ∧
    (optionJob opts).dstSkipRate = skipRate 0x84 0x85 opts ∧
    (optionJob opts).useF018A = (lastGiven revisionOf opts).getD false := by
  refine ⟨?_, ?_, ?_⟩
  · exact foldl_settle₂ setLo_replaces setHi_replaces setLo_setHi (o := DmaJob.srcSkipRate)
      (fun job o => (jobOption_settled job o).srcSkipRate) (newJob init) opts
  · exact foldl_settle₂ setLo_replaces setHi_replaces setLo_setHi (o := DmaJob.dstSkipRate)
      (fun job o => (jobOption_settled job o).dstSkipRate) (newJob init) opts
  · refine (foldl_settle put_replaces (o := DmaJob.useF018A)
      (fun job o => (jobOption_settled job o).useF018A) (newJob init) opts).trans ?_
    cases lastGiven revisionOf opts <;> rfl

end Mmemu.Guarantees.JobOptions

/-!
# F018B DMA: enhanced job lists

Software lays a job down as its options, a zero byte and eleven or twelve bytes,
by the revision it asks for. The controller decodes it as laid down unless the
job asks for F018B by option `$0B` while `$D703` says F018A: the option is then
read as if it were not there, and the job and all that follows one byte early.
-/
namespace Mmemu.Guarantees.JobLists
open Mmemu.Source.F018bDma Mmemu.Library.LastWins Mmemu.Guarantees.JobOptions

/-! ## Lists as software lays them down -/

inductive Revision where
  | f018a | f018b
  deriving DecidableEq, Repr

/-- An option: a switch below `$80`, or a setting with its argument. -/
inductive ListedOption where
  | switch (code : BitVec 8) (valid : code ≠ 0#8 ∧ code &&& 0x80 = 0#8)
  | setting (code arg : BitVec 8) (valid : code &&& 0x80 ≠ 0#8)

/-- A job in the fields its bytes hold; F018A has no subcommand. -/
structure Job where
  command : BitVec 8
  count : BitVec 16
  src : BitVec 20
  srcFlags : BitVec 4
  dst : BitVec 20
  dstFlags : BitVec 4
  subcommand : BitVec 8
  modulo : BitVec 16

def ListedOption.bytes : ListedOption → List (BitVec 8)
  | .switch code _ => [code]
  | .setting code arg _ => [code, arg]

def ListedOption.opt : ListedOption → Opt
  | .switch code _ => (code, 0)
  | .setting code arg _ => (code, arg)

/-- An address with its flags: low byte, middle byte, and flags above the bank. -/
def addrBytes (addr : BitVec 20) (flags : BitVec 4) : List (BitVec 8) :=
  [addr.setWidth 8, (addr >>> 8).setWidth 8, flags ++ (addr >>> 16).setWidth 4]

def wordBytes (w : BitVec 16) : List (BitVec 8) := [w.setWidth 8, (w >>> 8).setWidth 8]

def Job.bytes (job : Job) (rev : Revision) : List (BitVec 8) :=
  job.command :: wordBytes job.count ++ addrBytes job.src job.srcFlags ++
    addrBytes job.dst job.dstFlags ++
    (if rev = .f018b then [job.subcommand] else []) ++ wordBytes job.modulo

theorem Job.length_bytes (job : Job) (rev : Revision) :
    (job.bytes rev).length = if rev = .f018b then 12 else 11 := by
  cases rev <;> rfl

/-- An entry of a list. -/
structure Entry where
  options : List ListedOption
  job : Job

def Entry.opts (e : Entry) : List Opt := e.options.map ListedOption.opt

def Entry.bytes (e : Entry) (rev : Revision) : List (BitVec 8) :=
  e.options.flatMap ListedOption.bytes ++ 0#8 :: e.job.bytes rev

/-- The bytes lie in memory from `a` on. -/
def Lies (mem : BitVec 28 → BitVec 8) : BitVec 28 → List (BitVec 8) → Prop
  | _, [] => True
  | a, b :: rest => mem a = b ∧ Lies mem (a + 1) rest

/-- Whether bytes lie in memory can be looked up. -/
instance Lies.decidable (mem : BitVec 28 → BitVec 8) (a : BitVec 28) (bytes : List (BitVec 8)) :
    Decidable (Lies mem a bytes) :=
  match bytes with
  | [] => .isTrue trivial
  | _ :: rest =>
    have := Lies.decidable mem (a + 1) rest
    inferInstanceAs (Decidable (_ ∧ _))

theorem lies_append (mem : BitVec 28 → BitVec 8) (a : BitVec 28) (xs ys : List (BitVec 8)) :
    Lies mem a (xs ++ ys) ↔ Lies mem a xs ∧ Lies mem (a + BitVec.ofNat 28 xs.length) ys := by
  induction xs generalizing a with
  | nil => simp [Lies]
  | cons x xs ih =>
    have next : a + 1 + BitVec.ofNat 28 xs.length = a + BitVec.ofNat 28 (xs.length + 1) := by
      rw [BitVec.add_assoc, BitVec.ofNat_add, BitVec.add_comm (BitVec.ofNat 28 xs.length)]
      rfl
    rw [List.cons_append, Lies, Lies, ih, List.length_cons, and_assoc, next]

theorem Lies.get {mem : BitVec 28 → BitVec 8} {a : BitVec 28} {xs : List (BitVec 8)}
    (h : Lies mem a xs) {k : ℕ} {b : BitVec 8} (at_ : xs[k]? = some b) :
    mem (a + BitVec.ofNat 28 k) = b := by
  induction xs generalizing a k with
  | nil => cases at_
  | cons x xs ih =>
    cases k with
    | zero =>
      obtain rfl : x = b := Option.some.inj at_
      rw [BitVec.add_zero]
      exact h.1
    | succ k =>
      have rest := ih h.2 at_
      rw [BitVec.ofNat_add, BitVec.add_comm (BitVec.ofNat 28 k), ← BitVec.add_assoc]
      exact rest

/-! ## Reading them -/

theorem read8_ahead (mem : BitVec 28 → BitVec 8) (addr : BitVec 32) (k : ℕ) :
    read8 mem (addr + BitVec.ofNat 32 k) = mem (busAddr addr + BitVec.ofNat 28 k) := by
  unfold read8
  rw [DmaAddresses.busAddr_add]
  congr 2
  exact BitVec.eq_of_toNat_eq (by simp [busAddr])

/-- Fewer options than the parser allows are read up to the zero byte. -/
theorem options_decoded {mem : BitVec 28 → BitVec 8} {options : List ListedOption} {addr : BitVec 32}
    {left : ℕ} {rest : List (BitVec 8)} (short : options.length < left)
    (lies : Lies mem (busAddr addr) (options.flatMap ListedOption.bytes ++ 0#8 :: rest)) :
    optionsAt mem left addr = options.map ListedOption.opt ∧
    afterOptions mem left addr =
      addr + BitVec.ofNat 32 ((options.flatMap ListedOption.bytes).length + 1) := by
  induction options generalizing addr left with
  | nil =>
    obtain ⟨left, rfl⟩ : ∃ n, left = n + 1 := ⟨left - 1, by simp at short; omega⟩
    have stop : read8 mem addr = 0#8 := lies.1
    unfold optionsAt afterOptions
    simp [stop]
  | cons o options ih =>
    obtain ⟨left, rfl⟩ : ∃ n, left = n + 1 := ⟨left - 1, by simp at short; omega⟩
    have shorter : options.length < left := by simpa using short
    have one : busAddr addr + 1 = busAddr (addr + 1) := (DmaAddresses.busAddr_add addr 1).symm
    unfold optionsAt afterOptions
    cases o with
    | switch code valid =>
      have head : read8 mem addr = code := lies.1
      have tail := lies.2
      rw [one] at tail
      obtain ⟨opts, next⟩ := ih shorter tail
      simp only [head, valid.1, valid.2, if_false, ne_eq, not_true_eq_false, opts, next]
      refine ⟨rfl, ?_⟩
      rw [List.flatMap_cons, List.length_append, BitVec.add_assoc]
      congr 1
      exact BitVec.eq_of_toNat_eq (by simp [ListedOption.bytes]; omega)
    | setting code arg valid =>
      have head : read8 mem addr = code := lies.1
      have second := lies.2.1
      have tail := lies.2.2
      rw [one] at second tail
      have two : busAddr (addr + 1) + 1 = busAddr (addr + 1 + 1) :=
        (DmaAddresses.busAddr_add (addr + 1) 1).symm
      rw [two] at tail
      obtain ⟨opts, next⟩ := ih shorter tail
      have nonzero : code ≠ 0#8 := by
        rintro rfl
        exact valid (by decide)
      have argument : read8 mem (addr + 1) = arg := second
      simp only [head, nonzero, valid, if_false, if_true, ne_eq, not_false_eq_true, opts, next,
        argument]
      refine ⟨rfl, ?_⟩
      rw [List.flatMap_cons, List.length_append, BitVec.add_assoc, BitVec.add_assoc]
      congr 1
      exact BitVec.eq_of_toNat_eq (by simp [ListedOption.bytes]; omega)

theorem word16_bytes (w : BitVec 16) : word16 (w.setWidth 8) ((w >>> 8).setWidth 8) = w := by
  unfold word16
  ext i hi
  interval_cases i <;> simp

theorem addr20_parts (addr : BitVec 20) :
    (addr.setWidth 8).setWidth 32 ||| (((addr >>> 8).setWidth 8).setWidth 32 <<< 8) |||
      ((((addr >>> 16).setWidth 4).setWidth 8).setWidth 32 <<< 16) = addr.setWidth 32 := by
  apply BitVec.eq_of_getLsbD_eq
  intro i hi
  simp only [BitVec.getLsbD_or, BitVec.getLsbD_shiftLeft, BitVec.getLsbD_setWidth,
    BitVec.getLsbD_ushiftRight]
  rcases (by omega : i < 8 ∨ (8 ≤ i ∧ i < 16) ∨ (16 ≤ i ∧ i < 20) ∨ 20 ≤ i) with
    low | ⟨mid, mid'⟩ | ⟨high, high'⟩ | above
  · simp [low, hi, show i < 16 by omega]
  · simp [hi, mid', show ¬i < 8 by omega, show i - 8 < 8 by omega, show i - 8 < 32 by omega, show 8 + (i - 8) = i by omega]
  · simp [hi, show ¬i < 8 by omega, show ¬i < 16 by omega, show ¬i - 8 < 8 by omega,
      show i - 16 < 4 by omega, show i - 16 < 8 by omega, show i - 16 < 32 by omega, show 16 + (i - 16) = i by omega]
  · have out : addr.getLsbD i = false := BitVec.getLsbD_of_ge addr i above
    simp [hi, out, show ¬i < 8 by omega, show ¬i < 16 by omega, show ¬i - 8 < 8 by omega,
      show ¬i - 16 < 4 by omega]

theorem addr20_bytes (addr : BitVec 20) (flags : BitVec 4) :
    addr20 (addr.setWidth 8) ((addr >>> 8).setWidth 8) (flags ++ (addr >>> 16).setWidth 4) =
      addr.setWidth 32 := by
  have bank : ∀ b : BitVec 4, (flags ++ b) &&& (0x0F : BitVec 8) = b.setWidth 8 := by
    revert flags
    decide
  unfold addr20
  rw [bank]
  exact addr20_parts addr

theorem flags_byte (flags bank : BitVec 4) : ((flags ++ bank) >>> 4) &&& (0x0F : BitVec 8) = flags.setWidth 8 := by
  revert flags bank
  decide

/-- The job record of an entry. -/
def Entry.record (e : Entry) (rev : Revision) : DmaJob :=
  { newJob init with
    commandLsb := e.job.command
    commandMsb := if rev = .f018b then e.job.subcommand else 0
    count := e.job.count
    srcAddr := e.job.src.setWidth 32
    srcFlags := e.job.srcFlags.setWidth 8
    dstAddr := e.job.dst.setWidth 32
    dstFlags := e.job.dstFlags.setWidth 8
    modulo := e.job.modulo
    srcSkipRate := skipRate 0x82 0x83 e.opts
    dstSkipRate := skipRate 0x84 0x85 e.opts }

theorem readJob_lies {mem : BitVec 28 → BitVec 8} {addr : BitVec 32} {job : Job} (rev : Revision)
    (lies : Lies mem (busAddr addr) (job.bytes rev)) (before : DmaJob) :
    readJob mem addr (decide (rev = .f018b)) before =
      { before with
        commandLsb := job.command
        commandMsb := if rev = .f018b then job.subcommand else 0
        count := job.count
        srcAddr := job.src.setWidth 32
        srcFlags := job.srcFlags.setWidth 8
        dstAddr := job.dst.setWidth 32
        dstFlags := job.dstFlags.setWidth 8
        modulo := job.modulo } := by
  have byte {k : ℕ} {b : BitVec 8} (h : (job.bytes rev)[k]? = some b) :
      read8 mem (addr + BitVec.ofNat 32 k) = b := (read8_ahead mem addr k).trans (lies.get h)
  have b0 := byte (k := 0) rfl
  have b1 := byte (k := 1) rfl
  have b2 := byte (k := 2) rfl
  have b3 := byte (k := 3) rfl
  have b4 := byte (k := 4) rfl
  have b5 := byte (k := 5) rfl
  have b6 := byte (k := 6) rfl
  have b7 := byte (k := 7) rfl
  have b8 := byte (k := 8) rfl
  cases rev with
  | f018a =>
    have b9 := byte (k := 9) rfl
    have b10 := byte (k := 10) rfl
    simp only [readJob, b0, b1, b2, b3, b4, b5, b6, b7, b8, b9, b10, word16_bytes, addr20_bytes,
      flags_byte, reduceCtorEq, decide_false, Bool.false_eq_true, if_false]
  | f018b =>
    have b9 := byte (k := 9) rfl
    have b10 := byte (k := 10) rfl
    have b11 := byte (k := 11) rfl
    simp only [readJob, b0, b1, b2, b3, b4, b5, b6, b7, b8, b9, b10, b11, word16_bytes,
      addr20_bytes, flags_byte, decide_true, if_true]

/-! ## One fetch -/

/-- The revision an entry asks for: its last option `$0A` or `$0B`, else `$D703`. -/
def requested (s : Dma) (opts : List Opt) : Revision :=
  match lastGiven revisionOf opts with
  | some true => .f018a
  | some false => .f018b
  | none => if s.regs 0x03 &&& 0x01 ≠ 0#8 then .f018b else .f018a

/-- The revision asked for is F018A, or `$D703` says F018B anyway, or no option
asks for it. -/
def Understood (s : Dma) (opts : List Opt) : Prop :=
  lastGiven revisionOf opts = some false → s.regs 0x03 &&& 0x01 ≠ 0#8

instance (s : Dma) (opts : List Opt) : Decidable (Understood s opts) :=
  inferInstanceAs (Decidable (_ → _))

/-- The list pointer behind an entry of `size` bytes. -/
def behind (s : Dma) (size : ℕ) : BitVec 32 := (s.listAddr + BitVec.ofNat 32 size) &&& 0x0FFFFFFF

/-- The controller with the settings of an entry in force and the list pointer
behind it. -/
def ready (s : Dma) (opts : List Opt) (next : BitVec 32) : Dma :=
  { withOptions s (inForce (optionsOf s) opts) with
    inheritSrc := settle setMB s.inheritSrc (lastGiven (argOf 0x80) opts)
    inheritDst := settle setMB s.inheritDst (lastGiven (argOf 0x81) opts)
    listAddr := next }

/-- The controller with an entry's job under way as laid down. -/
def executed (s : Dma) (e : Entry) : Dma :=
  let rev := requested s e.opts
  beginJob (syncListAddrToRegs (ready s e.opts (behind s (e.bytes rev).length))) (e.record rev)
    (decide (rev = .f018b))

/-- A fetch decodes the entry at the list pointer as it was laid down. -/
def Decodes (mem : BitVec 28 → BitVec 8) (s : Dma) (e : Entry) : Prop :=
  fetchAndBeginNextJob mem s = executed s e

theorem isF018b_eq (s : Dma) (opts : List Opt) :
    isF018b s (optionJob opts) =
      if lastGiven revisionOf opts = some true then false
      else decide (s.regs 0x03 &&& 0x01 ≠ 0#8) := by
  unfold isF018b
  rw [(optionJob_settled opts).2.2]
  rcases lastGiven revisionOf opts with _ | _ | _ <;> rfl

theorem isF018b_understood {s : Dma} {opts : List Opt} (h : Understood s opts) :
    isF018b s (optionJob opts) = decide (requested s opts = .f018b) := by
  rw [isF018b_eq]
  unfold requested
  unfold Understood at h
  rcases given : lastGiven revisionOf opts with _ | _ | _
  · dsimp only
    rw [if_neg (by simp)]
    by_cases bit : s.regs 0x03 &&& 0x01 ≠ 0#8
    · rw [if_pos bit, decide_eq_true bit]
      rfl
    · rw [if_neg bit, decide_eq_false bit]
      rfl
  · dsimp only
    rw [if_neg (by simp), decide_eq_true (h given)]
    rfl
  · rfl

theorem isF018b_missed {s : Dma} {opts : List Opt} (h : ¬Understood s opts) :
    isF018b s (optionJob opts) = false ∧ requested s opts = .f018b := by
  unfold Understood at h
  rw [Classical.not_imp, not_not] at h
  rw [isF018b_eq, requested, h.1, h.2]
  exact ⟨rfl, rfl⟩

/-- What a begun job does not look at. -/
theorem beginJob_bit8 (s : Dma) (job : DmaJob) (f018b : Bool) :
    beginJob { s with transparency := s.transparency &&& 0x100 } job f018b = beginJob s job f018b := by
  unfold beginJob
  dsimp only
  rw [BitVec.and_assoc, BitVec.and_self]

theorem ready_eq (s : Dma) (opts : List Opt) (next : BitVec 32) :
    ready s opts (next &&& 0x0FFFFFFF) =
      { readied s opts next with transparency := (readied s opts next).transparency &&& 0x100 } := by
  unfold ready readied
  rw [foldl_inherit, foldl_inherit, ← foldl_options]
  rfl

/-- The fetch of an entry whose job is read as the controller reads it. -/
theorem fetch_entry {mem : BitVec 28 → BitVec 8} {s : Dma} {e : Entry} {rev : Revision}
    (enhanced : s.enhancedMode = true) (short : e.options.length < 128)
    (lies : Lies mem (busAddr s.listAddr) (e.bytes rev)) :
    nextOptions s mem = e.opts ∧
    nextAddr s mem =
      s.listAddr + BitVec.ofNat 32 ((e.options.flatMap ListedOption.bytes).length + 1) ∧
    Lies mem (busAddr (nextAddr s mem)) (e.job.bytes rev) := by
  obtain ⟨opts, next⟩ := options_decoded short lies
  have addr : nextAddr s mem =
      s.listAddr + BitVec.ofNat 32 ((e.options.flatMap ListedOption.bytes).length + 1) := by
    unfold nextAddr
    rw [if_pos enhanced]
    exact next
  refine ⟨?_, addr, ?_⟩
  · unfold nextOptions
    rw [if_pos enhanced]
    exact opts
  · have split : e.bytes rev = (e.options.flatMap ListedOption.bytes ++ [0#8]) ++ e.job.bytes rev := by
      simp [Entry.bytes]
    rw [split, lies_append] at lies
    rw [addr, DmaAddresses.busAddr_add]
    have same : busAddr (BitVec.ofNat 32 ((e.options.flatMap ListedOption.bytes).length + 1)) =
        BitVec.ofNat 28 (e.options.flatMap ListedOption.bytes ++ [0#8]).length :=
      BitVec.eq_of_toNat_eq (by simp [busAddr])
    rw [same]
    exact lies.2

theorem busAddr_masked (addr : BitVec 32) : busAddr (addr &&& 0x0FFFFFFF) = busAddr addr := by
  have mask : busAddr 0x0FFFFFFF#32 = BitVec.allOnes 28 := by decide
  have split : busAddr (addr &&& 0x0FFFFFFF#32) = busAddr addr &&& busAddr 0x0FFFFFFF#32 :=
    BitVec.setWidth_and
  exact split.trans (by rw [mask, BitVec.and_allOnes])

theorem executed_listAddr (s : Dma) (e : Entry) :
    (executed s e).listAddr = behind s (e.bytes (requested s e.opts)).length :=
  (beginJob_sameList _ _ _).listAddr

theorem length_bytes (e : Entry) (rev : Revision) :
    (e.bytes rev).length =
      (e.options.flatMap ListedOption.bytes).length + 1 + if rev = .f018b then 12 else 11 := by
  unfold Entry.bytes
  rw [List.length_append, List.length_cons, Job.length_bytes]
  omega

theorem next_eq (s : Dma) (options : ℕ) (rev : Revision) :
    s.listAddr + BitVec.ofNat 32 (options + 1) + (if decide (rev = .f018b) then 12 else 11) =
      s.listAddr + BitVec.ofNat 32 (options + 1 + if rev = .f018b then 12 else 11) := by
  rw [BitVec.add_assoc]
  cases rev <;> exact congrArg _ (BitVec.eq_of_toNat_eq (by simp))

theorem decodes_of_understood {mem : BitVec 28 → BitVec 8} {s : Dma} {e : Entry}
    (enhanced : s.enhancedMode = true) (short : e.options.length < 128)
    (lies : Lies mem (busAddr s.listAddr) (e.bytes (requested s e.opts)))
    (h : Understood s e.opts) : Decodes mem s e := by
  obtain ⟨opts, next, job⟩ := fetch_entry enhanced short lies
  unfold Decodes executed behind
  rw [fetch_eq, opts]
  dsimp only
  rw [isF018b_understood h, readJob_lies _ job, next, next_eq, ← length_bytes, ready_eq]
  have rates := optionJob_settled e.opts
  refine (beginJob_bit8 _ _ _).symm.trans ?_
  unfold beginJob Entry.record withMB syncListAddrToRegs setReg
  dsimp only
  rw [rates.1, rates.2.1]
  rfl

theorem misread_of_missed {mem : BitVec 28 → BitVec 8} {s : Dma} {e : Entry}
    (enhanced : s.enhancedMode = true) (short : e.options.length < 128)
    (lies : Lies mem (busAddr s.listAddr) (e.bytes (requested s e.opts)))
    (h : ¬Understood s e.opts) : ¬Decodes mem s e := by
  obtain ⟨opts, next, -⟩ := fetch_entry enhanced short lies
  obtain ⟨asA, asked⟩ := isF018b_missed h
  intro same
  have pointer : (fetchAndBeginNextJob mem s).listAddr = (executed s e).listAddr :=
    congrArg Dma.listAddr same
  rw [executed_listAddr, fetch_eq, (beginJob_sameList _ _ _).listAddr, asked, length_bytes, opts,
    asA] at pointer
  have early : busAddr (nextAddr s mem + 11) =
      busAddr (s.listAddr + BitVec.ofNat 32
        ((e.options.flatMap ListedOption.bytes).length + 1 + 12)) := by
    rw [← busAddr_masked, ← busAddr_masked (s.listAddr + _)]
    exact congrArg busAddr pointer
  rw [next, BitVec.add_assoc, DmaAddresses.busAddr_add, DmaAddresses.busAddr_add s.listAddr,
    BitVec.add_right_inj, BitVec.ofNat_add (_ + 1) 12, DmaAddresses.busAddr_add,
    DmaAddresses.busAddr_add, BitVec.add_right_inj] at early
  exact absurd early (by decide)

/-- A fetch decodes the entry it finds exactly when it understands the revision
asked for. -/
theorem decodes_iff {mem : BitVec 28 → BitVec 8} {s : Dma} {e : Entry}
    (enhanced : s.enhancedMode = true) (short : e.options.length < 128)
    (lies : Lies mem (busAddr s.listAddr) (e.bytes (requested s e.opts))) :
    Decodes mem s e ↔ Understood s e.opts := by
  constructor
  · intro decoded
    by_contra missed
    exact misread_of_missed enhanced short lies missed decoded
  · exact decodes_of_understood enhanced short lies

/-! ## Chains -/

variable {ι : Type}

/-- A running job after the transfer of a byte. -/
def afterByte (s : Dma) (ok : Bool) : Dma :=
  stepModulo (stepChannels { s with active := s.active && ok })

theorem afterByte_sameList (s : Dma) (ok : Bool) : SameList s (afterByte s ok) :=
  .trans (t := { s with active := s.active && ok }) ⟨rfl, rfl, rfl⟩
    ((stepChannels_sameList _).trans (stepModulo_sameList _))

/-- The state in which a tick fetches the next job of a chain, if it does. -/
def fetchPoint (c : Wiring ι) (x : Dma × World ι) : Option (Dma × World ι) :=
  if x.1.active = false ∨ x.1.bytesRemaining = 0 then none
  else
    let (ok, w) := transferByte c x.1 x.2
    let s := afterByte x.1 ok
    if s.bytesRemaining - 1 = 0 ∧ s.hasChain = true then
      some ({ s with bytesRemaining := s.bytesRemaining - 1 }, w)
    else none

/-- A tick fetches at its fetch point, or leaves the list alone. -/
theorem tick_cases (c : Wiring ι) (x : Dma × World ι) :
    (fetchPoint c x = none ∧ SameList x.1 (tick c x).1) ∨
    ∃ y, fetchPoint c x = some y ∧ SameList x.1 y.1 ∧
      tick c x = (fetchAndBeginNextJob y.2.mem y.1, y.2) := by
  unfold fetchPoint tick tickOneByte
  by_cases active : x.1.active = false
  · rw [if_pos (.inl active), if_pos (by rw [active]; rfl)]
    exact .inl ⟨rfl, .refl _⟩
  · have awake : ¬(!x.1.active) = true := by simpa using active
    by_cases done : x.1.bytesRemaining = 0
    · rw [if_pos (Or.inr done : x.1.active = false ∨ x.1.bytesRemaining = 0), if_neg awake,
        if_pos done]
      exact .inl ⟨rfl, ⟨rfl, rfl, rfl⟩⟩
    · rw [if_neg (not_or.mpr ⟨active, done⟩), if_neg awake, if_neg done]
      rcases transferByte c x.1 x.2 with ⟨ok, w⟩
      have moved := afterByte_sameList x.1 ok
      dsimp only
      by_cases fetches : (afterByte x.1 ok).bytesRemaining - 1 = 0 ∧ (afterByte x.1 ok).hasChain = true
      · rw [if_pos fetches]
        refine .inr ⟨_, rfl, ⟨moved.regs, moved.listAddr, moved.enhancedMode⟩, ?_⟩
        have fetched := finishByte_fetches w.mem fetches.1 fetches.2
        exact congrArg (·, w) fetched
      · rw [if_neg fetches]
        exact .inl ⟨rfl, moved.trans (finishByte_between w.mem fetches)⟩

/-- `y` is the state in which the next fetch takes place, some ticks after `x`. -/
inductive NextFetch (c : Wiring ι) : Dma × World ι → Dma × World ι → Prop where
  | here {x y : Dma × World ι} (at_ : fetchPoint c x = some y) : NextFetch c x y
  | later {x y : Dma × World ι} (between : fetchPoint c x = none) (rest : NextFetch c (tick c x) y) :
      NextFetch c x y

theorem NextFetch.sameList {c : Wiring ι} {x y : Dma × World ι} (h : NextFetch c x y) :
    SameList x.1 y.1 := by
  induction h with
  | @here x y at_ =>
    rcases tick_cases c x with ⟨between, -⟩ | ⟨z, fetches, same, -⟩
    · rw [at_] at between
      cases between
    · obtain rfl : y = z := Option.some.inj (at_.symm.trans fetches)
      exact same
  | @later x y between _ ih =>
    rcases tick_cases c x with ⟨-, same⟩ | ⟨z, fetches, -, -⟩
    · exact same.trans ih
    · rw [between] at fetches
      cases fetches

/-- A chain of jobs in memory: the states in which each is fetched, the first at
`a` and each of the others right behind the one before it. What the transfers
write may be anything, as long as a job still lies there when it is fetched. -/
inductive Chain (c : Wiring ι) : BitVec 28 → List Entry → List (Dma × World ι) → Prop where
  | last {a : BitVec 28} {e : Entry} {y : Dma × World ι}
      (lies : Lies y.2.mem a (e.bytes (requested y.1 e.opts))) : Chain c a [e] [y]
  | more {a : BitVec 28} {e : Entry} {es : List Entry} {y z : Dma × World ι}
      {zs : List (Dma × World ι)} (lies : Lies y.2.mem a (e.bytes (requested y.1 e.opts)))
      (next : NextFetch c (fetchAndBeginNextJob y.2.mem y.1, y.2) z)
      (rest : Chain c (a + BitVec.ofNat 28 (e.bytes (requested y.1 e.opts)).length) es (z :: zs)) :
      Chain c a (e :: es) (y :: z :: zs)

/-- A fetch leaves the mode and `$D703` as they are. -/
theorem fetch_keeps (mem : BitVec 28 → BitVec 8) (s : Dma) :
    (fetchAndBeginNextJob mem s).enhancedMode = s.enhancedMode ∧
    (fetchAndBeginNextJob mem s).regs 0x03 = s.regs 0x03 := by
  rw [fetch_eq]
  dsimp only
  rw [(beginJob_sameList _ _ _).enhancedMode, (beginJob_sameList _ _ _).regs]
  exact ⟨rfl, rfl⟩

theorem understood_congr {s s' : Dma} (same : s'.regs 0x03 = s.regs 0x03) (opts : List Opt) :
    Understood s' opts ↔ Understood s opts := by
  unfold Understood
  rw [same]

theorem decoded_pointer {mem : BitVec 28 → BitVec 8} {s : Dma} {e : Entry} (h : Decodes mem s e) :
    busAddr (fetchAndBeginNextJob mem s).listAddr =
      busAddr s.listAddr + BitVec.ofNat 28 (e.bytes (requested s e.opts)).length := by
  have pointer : (fetchAndBeginNextJob mem s).listAddr = (executed s e).listAddr :=
    congrArg Dma.listAddr h
  rw [pointer, executed_listAddr, behind, busAddr_masked, DmaAddresses.busAddr_add]
  congr 1
  exact BitVec.eq_of_toNat_eq (by simp [busAddr])

/-- A chain is decoded as it was laid down exactly when the controller understands
every revision asked for in it. -/
theorem chain_decodes_iff (c : Wiring ι) {es : List Entry} {y : Dma × World ι}
    {ys : List (Dma × World ι)} (laid : Chain c (busAddr y.1.listAddr) es (y :: ys))
    (enhanced : y.1.enhancedMode = true) (short : ∀ e ∈ es, e.options.length < 128) :
    List.Forall₂ (fun e y => Decodes y.2.mem y.1 e) es (y :: ys) ↔
      ∀ e ∈ es, Understood y.1 e.opts := by
  induction es generalizing y ys with
  | nil => cases laid
  | cons e es ih =>
    have shortHead : e.options.length < 128 := short e List.mem_cons_self
    have shortTail : ∀ e ∈ es, e.options.length < 128 := fun e h => short e (List.mem_cons_of_mem _ h)
    rw [List.forall₂_cons, List.forall_mem_cons]
    cases laid with
    | last lies =>
      rw [decodes_iff enhanced shortHead lies]
      simp
    | @more _ _ _ _ z zs lies next rest =>
      rw [decodes_iff enhanced shortHead lies]
      refine and_congr_right fun understood => ?_
      have kept := fetch_keeps y.2.mem y.1
      have same := next.sameList
      have bank : z.1.regs 0x03 = y.1.regs 0x03 := (congrFun same.regs 0x03).trans kept.2
      have place := decoded_pointer (decodes_of_understood enhanced shortHead lies understood)
      rw [← place, ← same.listAddr] at rest
      rw [ih rest (same.enhancedMode.trans (kept.1.trans enhanced)) shortTail]
      exact forall₂_congr fun e _ => understood_congr bank e.opts

/-! ## A chain of two jobs, and a job that asks for F018B -/

def idleJob : Job :=
  { command := 0, count := 1, src := 0x100, srcFlags := 0, dst := 0x200, dstFlags := 0, subcommand := 0
    modulo := 0 }

/-- One byte copied with option `$0B` before it, and another one chained to it. -/
def twoJobs : List Entry :=
  [{ options := [.switch 0x0B (by decide), .setting 0x85 0x02 (by decide)]
     job := { idleJob with command := 0x04 } },
    { options := [], job := idleJob }]

def memoryOf (bytes : List (BitVec 8)) : World Unit := { mem := fun a => bytes.getD a.toNat 0, io := () }

def enhanced (en018b : BitVec 8) : Dma :=
  { init with
    regs := Function.update (fun _ => 0) 0x03 en018b, enhancedMode := true, active := true }

def twoJobsLaid : Dma × World Unit := (enhanced 1, memoryOf (twoJobs.flatMap (Entry.bytes · .f018b)))

def twoJobsFetched : Dma × World Unit :=
  (fetchAndBeginNextJob twoJobsLaid.2.mem twoJobsLaid.1, twoJobsLaid.2)

theorem twoJobs_next : (fetchPoint DmaAddresses.noDevices twoJobsFetched).isSome = true := by
  decide

theorem twoJobs_decoded :
    List.Forall₂ (fun e (y : Dma × World Unit) => Decodes y.2.mem y.1 e) twoJobs
      [twoJobsLaid, (fetchPoint DmaAddresses.noDevices twoJobsFetched).get twoJobs_next] := by
  refine (chain_decodes_iff DmaAddresses.noDevices ?_ rfl ?_).mpr ?_
  · refine .more ?_ (.here (Option.some_get twoJobs_next).symm) (.last ?_)
    · decide
    · decide
  · decide
  · decide

/-- Option `$0B` before a job while `$D703` says F018A. -/
def askedForB : Entry := { options := [.switch 0x0B (by decide)], job := idleJob }

theorem option_0B_ignored :
    ¬∀ (mem : BitVec 28 → BitVec 8) (s : Dma) (e : Entry), s.enhancedMode = true →
      e.options.length < 128 → Lies mem (busAddr s.listAddr) (e.bytes (requested s e.opts)) →
        Decodes mem s e := by
  intro always
  have lies : Lies (memoryOf (askedForB.bytes .f018b)).mem (busAddr (enhanced 0).listAddr)
      (askedForB.bytes (requested (enhanced 0) askedForB.opts)) := by decide
  have missed : ¬Understood (enhanced 0) askedForB.opts := by decide
  exact misread_of_missed rfl (by decide) lies missed (always _ _ _ rfl (by decide) lies)

end Mmemu.Guarantees.JobLists
