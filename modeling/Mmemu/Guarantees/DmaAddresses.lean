import Mathlib.Tactic.IntervalCases
import Mmemu.Library.WordBytes
import Mmemu.Source.F018bDma

/-!
# F018B DMA: the addresses of a plain job

A plain job copies or fills with a step of one byte, without hold, modulo or I/O
visibility. Its accumulator is an unsigned 32-bit number of 256ths, shifted right
before the base is added: counting down it wraps to 2^24 bytes above the base, so
only a job that counts up, or has a single byte, touches the bytes it names.
-/
namespace Mmemu.Guarantees.DmaAddresses
open Mmemu.Source.F018bDma

variable {ι : Type}

/-- Memory after the first `n` bytes of a transfer, one after the other: byte `i`
goes to `dst i`, and its value may depend on the memory then. -/
def sequentially (dst : ℕ → BitVec 28) (value : ℕ → (BitVec 28 → BitVec 8) → BitVec 8) :
    ℕ → (BitVec 28 → BitVec 8) → BitVec 28 → BitVec 8
  | 0, mem => mem
  | n + 1, mem =>
    let mem := sequentially dst value n mem
    Function.update mem (dst n) (value n mem)

theorem sequentially_congr {dst dst' : ℕ → BitVec 28}
    {value value' : ℕ → (BitVec 28 → BitVec 8) → BitVec 8} (n : ℕ)
    (hd : ∀ i < n, dst i = dst' i) (hv : ∀ i < n, value i = value' i)
    (mem : BitVec 28 → BitVec 8) : sequentially dst value n mem = sequentially dst' value' n mem := by
  induction n with
  | zero => rfl
  | succ n ih =>
    have before := ih (fun i h => hd i (by omega)) (fun i h => hv i (by omega))
    simp only [sequentially, before, hd n (by omega), hv n (by omega)]

/-! ## Plain jobs -/

/-- No option of an earlier job is in force. -/
structure OptionsOff (s : Dma) : Prop where
  srcLine : s.src.line.enabled = false
  dstLine : s.dst.line.enabled = false
  spiral : s.spiralMode.enabled = false
  noTransparency : s.transparency &&& 0x100 ≠ 0#16

theorem resetOptions_off (s : Dma) : OptionsOff (resetOptions s) :=
  ⟨by simp [resetOptions, LineMode.enabled, LineMode.zero],
    by simp [resetOptions, LineMode.enabled, LineMode.zero], rfl, by simp [resetOptions]⟩

/-- The revision of the job a fetch in state `s` reads when its option list is
empty. -/
def revision (s : Dma) : Bool := isF018b s (newJob s)

/-- Where that job lies, past the empty option list of an enhanced job. -/
def jobAddr (s : Dma) : BitVec 32 := if s.enhancedMode then s.listAddr + 1 else s.listAddr

def nextJob (s : Dma) (mem : BitVec 28 → BitVec 8) : DmaJob :=
  readJob mem (jobAddr s) (revision s) (newJob s)

/-- The next job is a copy or a fill without options, hold, modulo or I/O flags. -/
structure PlainJob (s : Dma) (mem : BitVec 28 → BitVec 8) : Prop where
  off : OptionsOff s
  noOptions : s.enhancedMode = true → read8 mem s.listAddr = 0#8
  op : (nextJob s mem).op = .copy ∨ (nextJob s mem).op = .fill
  srcHold : (nextJob s mem).srcHold (revision s) = false
  dstHold : (nextJob s mem).dstHold (revision s) = false
  srcModulo : (nextJob s mem).srcModulo (revision s) = false
  dstModulo : (nextJob s mem).dstModulo (revision s) = false
  srcIo : (nextJob s mem).srcIo = false
  dstIo : (nextJob s mem).dstIo = false

/-! ## The fetch -/

/-- The state in which a plain job begins. -/
def prepared (s : Dma) : Dma :=
  syncListAddrToRegs
    { s with listAddr := (jobAddr s + if revision s then 12 else 11) &&& 0x0FFFFFFF }

theorem inherit_newJob (i : InheritMB) :
    (if i.isSet then { mb := i.mb, isSet := true } else i) = i := by
  rcases i with ⟨mb, isSet⟩
  cases isSet <;> rfl

theorem fetch_plain {s : Dma} {mem : BitVec 28 → BitVec 8}
    (noOptions : s.enhancedMode = true → read8 mem s.listAddr = 0#8) :
    fetchAndBeginNextJob mem s = beginJob (prepared s) (nextJob s mem) (revision s) := by
  have options : (if s.enhancedMode then parseJobOptions mem 128 s.listAddr s (newJob s)
      else (s.listAddr, s, newJob s)) = (jobAddr s, s, newJob s) := by
    unfold jobAddr
    cases mode : s.enhancedMode with
    | false => rfl
    | true => simp [parseJobOptions, noOptions mode]
  have src := inherit_newJob s.inheritSrc
  have dst := inherit_newJob s.inheritDst
  unfold fetchAndBeginNextJob
  rw [options]
  dsimp only [newJob] at src dst ⊢
  rw [src, dst]
  rfl

/-- A job of that kind is running: its channels step by one byte and nothing else
is in force. -/
structure Running (s : Dma) : Prop where
  off : OptionsOff s
  active : s.active = true
  op : s.currentOp = .copy ∨ s.currentOp = .fill
  srcHold : s.src.hold = false
  dstHold : s.dst.hold = false
  srcStep : s.src.step = 0x0100
  dstStep : s.dst.step = 0x0100
  srcIo : s.src.io = false
  dstIo : s.dst.io = false
  modulo : s.moduloActive = false

/-- A channel at its first byte. -/
structure Begins (ch : Channel) (base : BitVec 32) (dir : Bool) : Prop where
  base : ch.base = base
  dir : ch.dir = dir
  accum : ch.accum = 0

def srcBase (s : Dma) (mem : BitVec 28 → BitVec 8) : BitVec 32 :=
  baseAddr (revision s) s.inheritSrc (nextJob s mem).srcAddr (nextJob s mem).srcFlags

def dstBase (s : Dma) (mem : BitVec 28 → BitVec 8) : BitVec 32 :=
  baseAddr (revision s) s.inheritDst (nextJob s mem).dstAddr (nextJob s mem).dstFlags

/-- The controller with its next job fetched and under way. -/
def begun (s : Dma) (mem : BitVec 28 → BitVec 8) : Dma :=
  { fetchAndBeginNextJob mem s with active := true }

theorem byte_and_bit8 (byte : BitVec 8) : byte.setWidth 16 &&& 0x100#16 = 0#16 := by
  revert byte
  decide

/-- A fetch keeps bit 8 of the transparent value, which makes every byte opaque. -/
theorem bit8_kept (transparency : BitVec 16) (value : BitVec 8) :
    ((transparency &&& 0x100) ||| value.setWidth 16) &&& 0x100#16 = transparency &&& 0x100#16 := by
  rw [BitVec.and_or_distrib_right, byte_and_bit8, BitVec.or_zero, BitVec.and_assoc]
  rfl

theorem begun_eq {s : Dma} {mem : BitVec 28 → BitVec 8} (h : PlainJob s mem) :
    Running (begun s mem) ∧
    Begins (begun s mem).src (srcBase s mem) ((nextJob s mem).srcDir (revision s)) ∧
    Begins (begun s mem).dst (dstBase s mem) ((nextJob s mem).dstDir (revision s)) ∧
    (begun s mem).bytesRemaining = (nextJob s mem).length ∧
    (begun s mem).currentOp = (nextJob s mem).op ∧
    (begun s mem).fillByte = (nextJob s mem).srcAddr.setWidth 8 := by
  have bit8 : (s.transparency &&& 0x100 ||| s.transparencyVal.setWidth 16) &&& 0x100#16 ≠ 0#16 := by
    rw [bit8_kept]
    exact h.off.noTransparency
  have state : begun s mem =
      { beginJob (prepared s) (nextJob s mem) (revision s) with active := true } := by
    rw [begun, fetch_plain h.noOptions]
  have noModulo : ((prepared s).experimentalDmaOps &&
      ((prepared s).experimentalDmaOps && (nextJob s mem).srcModulo (revision s) ||
        (prepared s).experimentalDmaOps && (nextJob s mem).dstModulo (revision s))) = false := by
    simp [h.srcModulo, h.dstModulo]
  rw [state]
  unfold beginJob
  simp only [noModulo, Bool.false_eq_true, if_false]
  refine ⟨⟨⟨h.off.srcLine, h.off.dstLine, h.off.spiral, bit8⟩, rfl, h.op, h.srcHold, h.dstHold,
    rfl, rfl, h.srcIo, h.dstIo, rfl⟩, ⟨rfl, rfl, rfl⟩, ⟨rfl, rfl, rfl⟩, ?_⟩
  exact ⟨trivial, trivial, trivial⟩

/-! ## One byte -/

/-- A channel one byte on. -/
def moved (ch : Channel) : Channel :=
  { ch with accum := if ch.dir then ch.accum - 0x100 else ch.accum + 0x100 }

/-- What a plain job puts at the destination. -/
def byteOf (op : DmaOperation) (src : BitVec 28) (fillByte : BitVec 8)
    (mem : BitVec 28 → BitVec 8) : BitVec 8 :=
  if op = .copy then mem src else fillByte

theorem transfer_running (c : Wiring ι) {s : Dma} (w : World ι) (h : Running s) :
    transferByte c s w =
      (true, { w with
        mem := Function.update w.mem (busAddr s.dst.addr)
          (byteOf s.currentOp (busAddr s.src.addr) s.fillByte w.mem) }) := by
  have plainRead : dmaRead c w s.src.addr s.src.io = (read8 w.mem s.src.addr, w) := by
    rw [h.srcIo]
    unfold dmaRead
    cases c.ioRegistry <;> rfl
  have plainWrite : ∀ val, dmaWrite c w s.dst.addr val s.dst.io =
      { w with mem := write8 w.mem s.dst.addr val } := by
    intro val
    rw [h.dstIo]
    unfold dmaWrite
    cases c.ioRegistry <;> rfl
  have shown : ∀ byte : BitVec 8, byte.setWidth 16 ≠ s.transparency := by
    intro byte same
    have bit8 := h.off.noTransparency
    rw [← same] at bit8
    exact bit8 (byte_and_bit8 byte)
  unfold transferByte
  rcases h.op with op | op
  · simp only [op, plainRead, plainWrite, shown, ne_eq, not_false_eq_true, if_true]
    rfl
  · simp only [op, plainWrite]
    rfl

theorem step_running {s : Dma} (h : Running s) :
    stepModulo (stepChannels s) = { s with src := moved s.src, dst := moved s.dst } := by
  have one : ∀ ch : Channel, ch.hold = false → ch.line.enabled = false → ch.step = 0x0100 →
      stepAddress ch s.dst.accum s.spiralMode = (moved ch, s.spiralMode) := by
    intro ch hold line step
    unfold stepAddress moved
    simp only [hold, line, h.off.spiral, step, Bool.false_and, Bool.false_eq_true, if_false]
    cases ch.dir <;> rfl
  simp only [stepChannels, one s.src h.srcHold h.off.srcLine h.srcStep,
    one s.dst h.dstHold h.off.dstLine h.dstStep, stepModulo, h.modulo, Bool.not_false, if_true]

/-- One byte of a running job, and what follows it. -/
theorem tick_running (c : Wiring ι) {s : Dma} (w : World ι) (h : Running s)
    (more : s.bytesRemaining ≠ 0) :
    tick c (s, w) =
      let mem := Function.update w.mem (busAddr s.dst.addr)
        (byteOf s.currentOp (busAddr s.src.addr) s.fillByte w.mem)
      (finishByte mem { s with src := moved s.src, dst := moved s.dst }, { w with mem := mem }) := by
  have stepped := step_running h
  have awake : { s with active := s.active && true } = s := by rw [Bool.and_true]
  simp only [tick, h.active, Bool.not_true, Bool.false_eq_true, if_false, tickOneByte, more,
    transfer_running c w h]
  rw [h.active] at awake
  rw [awake, stepped]
  simp only [h.active]

/-! ## The whole job -/

/-- The accumulator after `i` bytes. -/
def accumAt (dir : Bool) (i : ℕ) : BitVec 32 :=
  if dir then -BitVec.ofNat 32 (256 * i) else BitVec.ofNat 32 (256 * i)

theorem moved_accumAt (ch : Channel) (i : ℕ) (h : ch.accum = accumAt ch.dir i) :
    moved ch = { ch with accum := accumAt ch.dir (i + 1) } := by
  have next : BitVec.ofNat 32 (256 * (i + 1)) = BitVec.ofNat 32 (256 * i) + 0x100 := by
    rw [Nat.mul_add, BitVec.ofNat_add]
    rfl
  unfold moved
  rw [h]
  unfold accumAt
  cases ch.dir
  · simp [next]
  · simp only [next, if_true]
    congr 1
    grind

/-- The address the code gives byte `i` of a channel. -/
def codeAddress (base : BitVec 32) (dir : Bool) (i : ℕ) : BitVec 28 :=
  busAddr (base + (accumAt dir i >>> 8))

/-- The address byte `i` of a channel should have. -/
def addressAt (base : BitVec 32) (dir : Bool) (i : ℕ) : BitVec 28 :=
  if dir then busAddr base - BitVec.ofNat 28 i else busAddr base + BitVec.ofNat 28 i

theorem busAddr_add (x y : BitVec 32) : busAddr (x + y) = busAddr x + busAddr y :=
  BitVec.setWidth_add x y (by decide)

theorem codeAddress_up (base : BitVec 32) {i : ℕ} (h : i < 65536) :
    codeAddress base false i = addressAt base false i := by
  have whole : BitVec.ofNat 32 (256 * i) >>> 8 = BitVec.ofNat 32 i := by
    apply BitVec.eq_of_toNat_eq
    rw [BitVec.toNat_ushiftRight, BitVec.toNat_ofNat, BitVec.toNat_ofNat, Nat.shiftRight_eq_div_pow]
    omega
  have bus : busAddr (BitVec.ofNat 32 i) = BitVec.ofNat 28 i := by
    apply BitVec.eq_of_toNat_eq
    rw [busAddr, BitVec.toNat_setWidth, BitVec.toNat_ofNat, BitVec.toNat_ofNat]
    omega
  simp only [codeAddress, addressAt, accumAt, Bool.false_eq_true, if_false, whole, busAddr_add, bus]

theorem codeAddress_first (base : BitVec 32) (dir : Bool) :
    codeAddress base dir 0 = addressAt base dir 0 := by
  cases dir <;> simp [codeAddress, addressAt, accumAt]

/-- The second byte of a channel that counts down lies 2^24 bytes too high. -/
theorem codeAddress_down_one (base : BitVec 32) : codeAddress base true 1 ≠ addressAt base true 1 := by
  intro same
  have code : codeAddress base true 1 = busAddr base + 0xFFFFFF#28 := by
    rw [codeAddress, busAddr_add]
    rfl
  have wanted : addressAt base true 1 = busAddr base + -1#28 := BitVec.sub_eq_add_neg _ _
  rw [code, wanted, BitVec.add_right_inj] at same
  exact absurd same (by decide)

theorem length_pos (job : DmaJob) : 0 < job.length := by
  unfold DmaJob.length nonzeroOr
  split <;> omega

theorem length_le (job : DmaJob) : job.length ≤ 65536 := by
  have bound := job.count.isLt
  unfold DmaJob.length nonzeroOr
  split <;> omega

/-- The controller and the world after `i` ticks of the next job. -/
def after (c : Wiring ι) (s : Dma) (w : World ι) (i : ℕ) : Dma × World ι :=
  (tick c)^[i] (begun s w.mem, w)

/-- Where the running job `b` stands after `i` bytes. -/
def atByte (b : Dma) (i : ℕ) : Dma :=
  { b with
    bytesRemaining := b.bytesRemaining - i
    src := { b.src with accum := accumAt b.src.dir i }
    dst := { b.dst with accum := accumAt b.dst.dir i } }

theorem Running.atByte {b : Dma} (h : Running b) (i : ℕ) : Running (atByte b i) :=
  ⟨⟨h.off.srcLine, h.off.dstLine, h.off.spiral, h.off.noTransparency⟩, h.active, h.op, h.srcHold,
    h.dstHold, h.srcStep, h.dstStep, h.srcIo, h.dstIo, h.modulo⟩

/-- Memory after `i` bytes of the running job, at the addresses the code uses. -/
def memAt (b : Dma) (mem : BitVec 28 → BitVec 8) (i : ℕ) : BitVec 28 → BitVec 8 :=
  sequentially (codeAddress b.dst.base b.dst.dir)
    (fun k => byteOf b.currentOp (codeAddress b.src.base b.src.dir k) b.fillByte) i mem

/-- A byte before the last leaves the job one byte on. -/
theorem tick_atByte (c : Wiring ι) {b : Dma} (w : World ι) (h : Running b) {i : ℕ}
    (more : i + 1 < b.bytesRemaining) :
    tick c (atByte b i, { w with mem := memAt b w.mem i }) =
      (atByte b (i + 1), { w with mem := memAt b w.mem (i + 1) }) := by
  have left : (atByte b i).bytesRemaining ≠ 0 := Nat.sub_ne_zero_of_lt (by omega)
  have left' : (atByte b i).bytesRemaining - 1 ≠ 0 := by
    change b.bytesRemaining - i - 1 ≠ 0
    omega
  rw [tick_running c _ (h.atByte i) left]
  have src : moved (atByte b i).src = (atByte b (i + 1)).src := moved_accumAt _ i rfl
  have dst : moved (atByte b i).dst = (atByte b (i + 1)).dst := moved_accumAt _ i rfl
  simp only [src, dst, finishByte]
  rw [if_pos left']
  rfl

/-- The last byte ends the job. -/
theorem tick_last (c : Wiring ι) {b : Dma} (w : World ι) (h : Running b) {i : ℕ}
    (last : i + 1 = b.bytesRemaining) :
    tick c (atByte b i, { w with mem := memAt b w.mem i }) =
      (endJob (memAt b w.mem (i + 1)) (atByte b (i + 1)),
        { w with mem := memAt b w.mem (i + 1) }) := by
  have left : (atByte b i).bytesRemaining ≠ 0 := Nat.sub_ne_zero_of_lt (by omega)
  have left' : (atByte b i).bytesRemaining - 1 = 0 := by
    change b.bytesRemaining - i - 1 = 0
    omega
  rw [tick_running c _ (h.atByte i) left]
  have src : moved (atByte b i).src = (atByte b (i + 1)).src := moved_accumAt _ i rfl
  have dst : moved (atByte b i).dst = (atByte b (i + 1)).dst := moved_accumAt _ i rfl
  simp only [src, dst, finishByte]
  rw [if_neg (not_not.mpr left')]
  rfl

theorem atByte_zero {b : Dma} (src : b.src.accum = 0) (dst : b.dst.accum = 0) : atByte b 0 = b := by
  have zero : ∀ dir, accumAt dir 0 = 0 := by decide
  have srcEq : { b.src with accum := accumAt b.src.dir 0 } = b.src := by rw [zero, ← src]
  have dstEq : { b.dst with accum := accumAt b.dst.dir 0 } = b.dst := by rw [zero, ← dst]
  rw [atByte, srcEq, dstEq, Nat.sub_zero]

theorem after_eq (c : Wiring ι) {s : Dma} (w : World ι) (h : PlainJob s w.mem) {i : ℕ}
    (hi : i < (nextJob s w.mem).length) :
    after c s w i =
      (atByte (begun s w.mem) i, { w with mem := memAt (begun s w.mem) w.mem i }) := by
  obtain ⟨running, src, dst, length, -, -⟩ := begun_eq h
  induction i with
  | zero =>
    rw [atByte_zero src.accum dst.accum]
    rfl
  | succ i ih =>
    rw [after, Function.iterate_succ_apply', ← after, ih (by omega)]
    exact tick_atByte c w running (by omega)

theorem after_length (c : Wiring ι) {s : Dma} (w : World ι) (h : PlainJob s w.mem) :
    after c s w (nextJob s w.mem).length =
      (endJob (memAt (begun s w.mem) w.mem (nextJob s w.mem).length)
          (atByte (begun s w.mem) (nextJob s w.mem).length),
        { w with mem := memAt (begun s w.mem) w.mem (nextJob s w.mem).length }) := by
  obtain ⟨running, -, -, length, -, -⟩ := begun_eq h
  obtain ⟨last, eq⟩ := Nat.exists_eq_succ_of_ne_zero (length_pos (nextJob s w.mem)).ne'
  have before := after_eq c w h (i := last) (by omega)
  rw [eq, after, Function.iterate_succ_apply', ← after, before]
  exact tick_last c w running (by omega)

/-! ## Exactness -/

/-- The reference: byte `i` goes from address `base ± i` to address `base ± i`, one
after the other. -/
def reference (s : Dma) (mem : BitVec 28 → BitVec 8) : BitVec 28 → BitVec 8 :=
  let job := nextJob s mem
  sequentially (addressAt (dstBase s mem) (job.dstDir (revision s)))
    (fun i => byteOf job.op (addressAt (srcBase s mem) (job.srcDir (revision s)) i)
      (job.srcAddr.setWidth 8)) job.length mem

/-- The next job transfers exactly its bytes, each from and to its own address, and
memory is then that of the reference. A fill has no source. -/
structure ExactTransfer (c : Wiring ι) (s : Dma) (w : World ι) : Prop where
  active : ∀ i < (nextJob s w.mem).length, (after c s w i).1.active = true ∧
    (after c s w i).1.bytesRemaining = (nextJob s w.mem).length - i
  dstAddr : ∀ i < (nextJob s w.mem).length, busAddr (after c s w i).1.dst.addr =
    addressAt (dstBase s w.mem) ((nextJob s w.mem).dstDir (revision s)) i
  srcAddr : (nextJob s w.mem).op = .copy → ∀ i < (nextJob s w.mem).length,
    busAddr (after c s w i).1.src.addr =
      addressAt (srcBase s w.mem) ((nextJob s w.mem).srcDir (revision s)) i
  ended : ∃ last, last.bytesRemaining = 0 ∧ last.hasChain = (begun s w.mem).hasChain ∧
    (after c s w (nextJob s w.mem).length).1 = endJob (reference s w.mem) last
  memory : (after c s w (nextJob s w.mem).length).2 = { w with mem := reference s w.mem }

/-- The channels the job uses count up. -/
def Ascending (job : DmaJob) (f018b : Bool) : Prop :=
  job.dstDir f018b = false ∧ (job.op = .copy → job.srcDir f018b = false)

theorem codeAddress_exact (base : BitVec 32) (dir : Bool) {n i : ℕ} (bound : n ≤ 65536) (hi : i < n)
    (ok : n = 1 ∨ dir = false) : codeAddress base dir i = addressAt base dir i := by
  rcases ok with one | up
  · have first : i = 0 := by omega
    rw [first]
    exact codeAddress_first base dir
  · rw [up]
    exact codeAddress_up base (by omega)

theorem memAt_exact {s : Dma} {mem : BitVec 28 → BitVec 8} (h : PlainJob s mem)
    (ok : (nextJob s mem).length = 1 ∨ Ascending (nextJob s mem) (revision s)) :
    memAt (begun s mem) mem (nextJob s mem).length = reference s mem := by
  obtain ⟨-, src, dst, -, op, fill⟩ := begun_eq h
  have bound := length_le (nextJob s mem)
  unfold memAt reference
  rw [src.base, src.dir, dst.base, dst.dir, op, fill]
  apply sequentially_congr
  · intro i hi
    exact codeAddress_exact _ _ bound hi (ok.imp_right And.left)
  · intro i hi
    unfold byteOf
    split
    · rename_i copy
      rw [codeAddress_exact _ _ bound hi (ok.imp_right fun up => up.2 copy)]
    · rfl

/-- A channel that counts down for more than one byte is wrong at its second. -/
theorem dir_of_addresses (base : BitVec 32) (dir : Bool) {n : ℕ} (two : 1 < n)
    (exact : ∀ i < n, codeAddress base dir i = addressAt base dir i) : dir = false := by
  cases dir with
  | false => rfl
  | true => exact absurd (exact 1 two) (codeAddress_down_one base)

/-- A plain job transfers exactly its bytes if and only if it has a single byte or
its channels count up. -/
theorem exactTransfer_iff (c : Wiring ι) (s : Dma) (w : World ι) (h : PlainJob s w.mem) :
    ExactTransfer c s w ↔
      (nextJob s w.mem).length = 1 ∨ Ascending (nextJob s w.mem) (revision s) := by
  obtain ⟨running, src, dst, length, op, -⟩ := begun_eq h
  have bound := length_le (nextJob s w.mem)
  have dstAt : ∀ i < (nextJob s w.mem).length, busAddr (after c s w i).1.dst.addr =
      codeAddress (dstBase s w.mem) ((nextJob s w.mem).dstDir (revision s)) i := by
    intro i hi
    rw [after_eq c w h hi, ← dst.base, ← dst.dir]
    rfl
  have srcAt : ∀ i < (nextJob s w.mem).length, busAddr (after c s w i).1.src.addr =
      codeAddress (srcBase s w.mem) ((nextJob s w.mem).srcDir (revision s)) i := by
    intro i hi
    rw [after_eq c w h hi, ← src.base, ← src.dir]
    rfl
  constructor
  · intro exact
    by_cases two : 1 < (nextJob s w.mem).length
    · refine Or.inr ⟨?_, ?_⟩
      · exact dir_of_addresses _ _ two fun i hi => (dstAt i hi).symm.trans (exact.dstAddr i hi)
      · intro copy
        exact dir_of_addresses _ _ two fun i hi => (srcAt i hi).symm.trans (exact.srcAddr copy i hi)
    · have positive := length_pos (nextJob s w.mem)
      exact Or.inl (by omega)
  · intro ok
    have finished := after_length c w h
    rw [memAt_exact h ok] at finished
    refine ⟨?_, ?_, ?_, ?_, ?_⟩
    · intro i hi
      rw [after_eq c w h hi]
      exact ⟨running.active, congrArg (· - i) length⟩
    · intro i hi
      rw [dstAt i hi]
      exact codeAddress_exact _ _ bound hi (ok.imp_right And.left)
    · intro copy i hi
      rw [srcAt i hi]
      exact codeAddress_exact _ _ bound hi (ok.imp_right fun up => up.2 copy)
    · refine ⟨atByte (begun s w.mem) (nextJob s w.mem).length, ?_, rfl, ?_⟩
      · change (begun s w.mem).bytesRemaining - (nextJob s w.mem).length = 0
        omega
      · rw [finished]
    · rw [finished]

/-- A two-byte F018A copy from `$1001` to `$2001`, with the given bank byte of the
destination, listed at `$4000`. -/
def copyList (dstBank : BitVec 8) : World Unit where
  mem a :=
    match a.toNat with
    | 0x4001 => 2 | 0x4003 => 0x01 | 0x4004 => 0x10 | 0x4006 => 0x01 | 0x4007 => 0x20
    | 0x4008 => dstBank | 0x1001 => 0xAA | 0x1002 => 0xBB | _ => 0
  io := ()

def triggered : Dma := resetOptions { init with listAddr := 0x4000 }

def noDevices : Wiring Unit := { ioRegistry := none, mapController := none }

theorem copyList_plain {dstBank : BitVec 8} (h : dstBank = 0x00 ∨ dstBank = 0x40) :
    PlainJob triggered (copyList dstBank).mem := by
  rcases h with rfl | rfl
  all_goals
    exact ⟨resetOptions_off _, by decide, by decide, by decide, by decide, by decide, by decide,
      by decide, by decide⟩

theorem exactTransfer_iff_up :
    ExactTransfer noDevices triggered (copyList 0x00) ↔
      (nextJob triggered (copyList 0x00).mem).length = 1 ∨
        Ascending (nextJob triggered (copyList 0x00).mem) (revision triggered) :=
  exactTransfer_iff noDevices triggered (copyList 0x00) (copyList_plain (by decide))

/-- Counting down from `$2001`, the second byte goes to `$1002000`. -/
theorem not_every_transfer_exact :
    ¬ ∀ (c : Wiring Unit) (s : Dma) (w : World Unit), PlainJob s w.mem → ExactTransfer c s w := by
  intro claim
  have exact := claim noDevices triggered (copyList 0x40) (copyList_plain (by decide))
  exact absurd (exact.dstAddr 1 (by decide)) (by decide)

end Mmemu.Guarantees.DmaAddresses

/-!
# F018B DMA: the list address and its registers

Bits 22:20 of the list address lie in `ADDRBANK` and again in `ADDRMB`. Every
register write keeps the two copies equal, and every fetch writes the list
address to the registers as a trigger puts it together. A trigger through
`ADDRLSBTRIG` drops the address bits from 23 up first.
-/
namespace Mmemu.Guarantees.DmaMirrors
open Mmemu.Source.F018bDma Mmemu.Library.LittleEndian

variable {ι : Type}

/-- Bits 6:4 of `ADDRBANK` are bits 2:0 of `ADDRMB`. -/
def Mirrored (s : Dma) : Prop := (s.regs 0x02 >>> 4) &&& 0x07 = s.regs 0x04 &&& 0x07

/-- Either low byte a trigger may start from gives the list pointer. -/
structure Synced (s : Dma) : Prop where
  lsb : assembleListAddr s (s.regs 0x00) = s.listAddr
  etrig : assembleListAddr s (s.regs 0x05) = s.listAddr

/-! ## Bits -/

theorem mirror_bank (val : BitVec 8) : (val >>> 4) &&& 0x07#8 = ((val &&& 0x70) >>> 4) &&& 0x07 := by
  ext i hi
  interval_cases i <;> simp

theorem mirror_mb (bank val : BitVec 8) :
    (((bank &&& 0x8F) ||| ((val &&& 0x07) <<< 4)) >>> 4) &&& 0x07#8 = val &&& 0x07 := by
  ext i hi
  interval_cases i <;> simp

theorem mirror_addr (bank : BitVec 8) (addr : BitVec 32) :
    (((bank &&& 0x80) ||| ((addr >>> 16).setWidth 8 &&& 0x7F)) >>> 4) &&& 0x07#8 =
      (addr >>> 20).setWidth 8 &&& 0x07 := by
  ext i hi
  interval_cases i <;> simp

theorem assemble_addr (bank : BitVec 8) (addr : BitVec 32) :
    ((((addr >>> 0).setWidth 8).setWidth 32 ||| (((addr >>> 8).setWidth 8).setWidth 32 <<< 8)
      ||| ((((bank &&& 0x80) ||| ((addr >>> 16).setWidth 8 &&& 0x7F)) &&& 0x7F).setWidth 32 <<< 16)
      ||| (((addr >>> 20).setWidth 8 >>> 3).setWidth 32 <<< 23)) &&& 0x0FFFFFFF#32) =
      addr &&& 0x0FFFFFFF := by
  ext i hi
  interval_cases i <;> simp

theorem low_byte (val : BitVec 8) : val.setWidth 32 &&& 0x0FFFFFFF#32 = val.setWidth 32 &&& 0x007FFFFF#32 :=
  (low_and_set (by decide) val).trans (low_and_set (by decide) val).symm

theorem mid_byte (val : BitVec 8) :
    (val.setWidth 32 <<< 8) &&& 0x0FFFFFFF#32 = (val.setWidth 32 <<< 8) &&& 0x007FFFFF#32 :=
  (placed_and_set 8 (by decide) val).trans (placed_and_set 8 (by decide) val).symm

theorem bank_byte (val : BitVec 8) :
    ((val &&& 0x7F).setWidth 32 <<< 16) &&& 0x0FFFFFFF#32 =
      ((val &&& 0x7F).setWidth 32 <<< 16) &&& 0x007FFFFF#32 := by
  revert val
  decide

theorem above_low (upper : BitVec 32) : (upper <<< 23) &&& 0x007FFFFF#32 = 0#32 := by
  ext i hi
  interval_cases i <;> simp

theorem no_upper (mb : BitVec 8) : (mb &&& 0x07) >>> 3 = 0#8 := by
  ext i hi
  interval_cases i <;> simp

/-- Without the upper bits of `ADDRMB` the address is that of the lower eight
megabytes. -/
theorem low_assembled (low mid bank mb : BitVec 8) :
    ((low.setWidth 32 ||| (mid.setWidth 32 <<< 8) ||| ((bank &&& 0x7F).setWidth 32 <<< 16)
      ||| (((mb &&& 0x07) >>> 3).setWidth 32 <<< 23)) &&& 0x0FFFFFFF#32) =
    ((low.setWidth 32 ||| (mid.setWidth 32 <<< 8) ||| ((bank &&& 0x7F).setWidth 32 <<< 16)
      ||| ((mb >>> 3).setWidth 32 <<< 23)) &&& 0x0FFFFFFF#32) &&& 0x007FFFFF#32 := by
  have masks : 0x0FFFFFFF#32 &&& 0x007FFFFF#32 = 0x007FFFFF#32 := by decide
  have nothing : (0#8).setWidth 32 <<< 23 = 0#32 := by decide
  rw [no_upper, nothing, BitVec.or_zero, BitVec.and_assoc, masks]
  simp only [BitVec.and_or_distrib_right, low_byte, mid_byte, bank_byte, above_low, BitVec.or_zero]

/-! ## Fetches -/

theorem Mirrored.of_sameList {s s' : Dma} (h : Mirrored s) (same : SameList s s') : Mirrored s' := by
  unfold Mirrored
  rw [same.regs]
  exact h

theorem cleared_mirrored {s : Dma} (cleared : s.regs = fun _ => 0) : Mirrored s := by
  unfold Mirrored
  rw [cleared]
  decide

theorem sync_mirrored (t : Dma) : Mirrored (syncListAddrToRegs t) :=
  mirror_addr (t.regs 0x02) t.listAddr

/-- A fetch ends with the list pointer in the registers and the job set up. -/
theorem fetch_synced (mem : BitVec 28 → BitVec 8) (s : Dma) :
    ∃ t : Dma, t.listAddr &&& 0x0FFFFFFF = t.listAddr ∧
      SameList (syncListAddrToRegs t) (fetchAndBeginNextJob mem s) := by
  rw [fetch_eq]
  refine ⟨_, ?_, beginJob_sameList _ _ _⟩
  unfold readied
  dsimp only
  rw [BitVec.and_assoc, BitVec.and_self]

theorem fetch_mirrored (mem : BitVec 28 → BitVec 8) (s : Dma) :
    Mirrored (fetchAndBeginNextJob mem s) := by
  obtain ⟨t, -, same⟩ := fetch_synced mem s
  exact (sync_mirrored t).of_sameList same

theorem sync_synced {t : Dma} (masked : t.listAddr &&& 0x0FFFFFFF = t.listAddr) :
    Synced (syncListAddrToRegs t) := by
  have whole := assemble_addr (t.regs 0x02) t.listAddr
  rw [masked] at whole
  exact ⟨whole, whole⟩

theorem Synced.of_sameList {s s' : Dma} (h : Synced s) (same : SameList s s') : Synced s' := by
  refine ⟨?_, ?_⟩
  · unfold assembleListAddr
    rw [same.regs, same.listAddr]
    exact h.lsb
  · unfold assembleListAddr
    rw [same.regs, same.listAddr]
    exact h.etrig

/-- After every fetch the registers hold the list pointer. -/
theorem fetch_holds_pointer (mem : BitVec 28 → BitVec 8) (s : Dma) :
    Synced (fetchAndBeginNextJob mem s) := by
  obtain ⟨t, masked, same⟩ := fetch_synced mem s
  exact (sync_synced masked).of_sameList same

/-! ## Register writes -/

theorem startDma_mirrored (mem : BitVec 28 → BitVec 8) (s : Dma) : Mirrored (startDma mem s) :=
  (fetch_mirrored mem _).of_sameList ⟨rfl, rfl, rfl⟩

theorem startMapped_mirrored (mem : BitVec 28 → BitVec 8) (resolvePhysical : BitVec 16 → BitVec 32)
    (val : BitVec 8) (s : Dma) : Mirrored (startMapped mem resolvePhysical val s) :=
  (fetch_mirrored mem _).of_sameList ⟨rfl, rfl, rfl⟩

theorem setReg_mirrored {s : Dma} (h : Mirrored s) {k : Fin 16} (bank : k ≠ 0x02) (mb : k ≠ 0x04)
    (val : BitVec 8) : Mirrored (setReg s k val) := by
  unfold Mirrored setReg
  dsimp only
  rw [Function.update_of_ne bank.symm, Function.update_of_ne mb.symm]
  exact h

theorem ioWrite_mirrored (c : Wiring ι) (mem : BitVec 28 → BitVec 8) {s : Dma} (h : Mirrored s)
    (offset : Fin 16) (val : BitVec 8) : Mirrored (ioWrite c mem s offset val) := by
  unfold ioWrite
  dsimp only
  split
  · exact startDma_mirrored mem _
  next at2 =>
    obtain rfl : offset = 0x02 := Fin.ext at2
    exact mirror_bank val
  next at4 =>
    obtain rfl : offset = 0x04 := Fin.ext at4
    exact mirror_mb (s.regs 0x02) val
  · exact startDma_mirrored mem _
  · split
    · exact startMapped_mirrored mem _ val _
    · exact startDma_mirrored mem _
  next not0 not2 not4 not5 not6 =>
    refine setReg_mirrored h ?_ ?_ val
    · rintro rfl
      exact not2 rfl
    · rintro rfl
      exact not4 rfl

/-! ## Runs -/

theorem boardWrite_mirrored (b : Board ι) {x : Dma × World ι} (h : Mirrored x.1) (addr : BitVec 32)
    (val : BitVec 8) (ioFlag : Bool) : Mirrored (boardWrite b x addr val ioFlag).1 := by
  unfold boardWrite
  split
  · split
    · exact h
    · split
      · exact ioWrite_mirrored _ _ h _ _
      · split <;> exact h
  · exact h

theorem boardTransfer_mirrored (b : Board ι) {s : Dma} (h : Mirrored s) (w : World ι) :
    Mirrored (boardTransfer b s w).1 := by
  unfold boardTransfer
  dsimp only
  cases s.currentOp with
  | copy =>
    dsimp only
    rcases boardRead b s w s.src.addr s.src.io with ⟨byte, w⟩
    split
    · exact boardWrite_mirrored b (x := (s, w)) h _ _ _
    · exact h
  | fill => exact boardWrite_mirrored b (x := (s, w)) h _ _ _
  | swap =>
    dsimp only
    split
    · exact h
    · rcases boardRead b s w s.src.addr s.src.io with ⟨a, w⟩
      dsimp only
      rcases boardRead b s w s.dst.addr s.dst.io with ⟨d, w⟩
      exact boardWrite_mirrored b (boardWrite_mirrored b (x := (s, w)) h _ _ _) _ _ _
  | mix =>
    dsimp only
    split
    · exact h
    · rcases boardRead b s w s.src.addr s.src.io with ⟨a, w⟩
      dsimp only
      rcases boardRead b s w s.dst.addr s.dst.io with ⟨d, w⟩
      exact boardWrite_mirrored b (x := (s, w)) h _ _ _

theorem finishByte_mirrored (mem : BitVec 28 → BitVec 8) {s : Dma} (h : Mirrored s) :
    Mirrored (finishByte mem s) := by
  by_cases fetches : s.bytesRemaining - 1 = 0 ∧ s.hasChain = true
  · rw [finishByte_fetches mem fetches.1 fetches.2]
    exact fetch_mirrored mem _
  · exact h.of_sameList (finishByte_between mem fetches)

theorem boardTick_mirrored (b : Board ι) {x : Dma × World ι} (h : Mirrored x.1) :
    Mirrored (boardTick b x).1 := by
  unfold boardTick
  split
  · exact h
  · split
    · exact h
    · have moved := boardTransfer_mirrored b h x.2
      revert moved
      rcases boardTransfer b x.1 x.2 with ⟨s, w⟩
      intro moved
      have stepped : Mirrored (stepModulo (stepChannels s)) :=
        (moved.of_sameList (stepChannels_sameList s)).of_sameList (stepModulo_sameList _)
      exact finishByte_mirrored w.mem stepped

/-- What happens to the controller and to the memory its lists lie in. -/
inductive Event (ι : Type) where
  | write (offset : Fin 16) (val : BitVec 8)
  | tick
  | reset
  | others (w : World ι)

/-- `others` stands for the rest of the machine, which may change all memory and
every other device. -/
def step (b : Board ι) (x : Dma × World ι) : Event ι → Dma × World ι
  | .write offset val => (ioWrite b.wiring x.2.mem x.1 offset val, x.2)
  | .tick => boardTick b x
  | .reset => (reset x.1, x.2)
  | .others w => (x.1, w)

theorem step_mirrored (b : Board ι) {x : Dma × World ι} (h : Mirrored x.1) (e : Event ι) :
    Mirrored (step b x e).1 := by
  cases e with
  | write offset val => exact ioWrite_mirrored _ _ h offset val
  | tick => exact boardTick_mirrored b h
  | reset => exact cleared_mirrored rfl
  | others w => exact h

theorem run_mirrored (b : Board ι) {x : Dma × World ι} (h : Mirrored x.1) (es : List (Event ι)) :
    Mirrored (es.foldl (step b) x).1 := by
  induction es generalizing x with
  | nil => exact h
  | cons e rest ih => exact ih (step_mirrored b h e)

/-! ## Triggering again -/

/-- The controller as a trigger through `$D700` or `$D705` fetches its first job. -/
def primed (s : Dma) (etrig : Bool) (val : BitVec 8) : Dma :=
  let s := setReg { s with enhancedMode := etrig } (if etrig then 0x05 else 0x00) val
  let s := if etrig then setReg s 0x00 val
    else setReg (setReg s 0x04 (s.regs 0x04 &&& 0x07)) 0x05 val
  resetOptions { s with listAddr := assembleListAddr s val }

theorem ioWrite_primed (c : Wiring ι) (mem : BitVec 28 → BitVec 8) (s : Dma) (etrig : Bool)
    (val : BitVec 8) :
    ioWrite c mem s (if etrig then 0x05 else 0x00) val =
      { fetchAndBeginNextJob mem (primed s etrig val) with active := true } := by
  cases etrig <;> rfl

/-- The trigger fetches at the list pointer the controller was at. -/
def Continues (s : Dma) (etrig : Bool) : Prop :=
  (primed s etrig (ioRead s 0x00)).listAddr = s.listAddr

theorem continues_etrig {s : Dma} (h : Synced s) : Continues s true := h.lsb

/-- `$D700` goes back to the lower eight megabytes. -/
theorem primed_lsb {s : Dma} (h : Synced s) :
    (primed s false (ioRead s 0x00)).listAddr = s.listAddr &&& 0x007FFFFF := by
  rw [← h.lsb]
  exact low_assembled (s.regs 0x00) (s.regs 0x01) (s.regs 0x02) (s.regs 0x04)

theorem continues_lsb_iff {s : Dma} (h : Synced s) :
    Continues s false ↔ s.listAddr.toNat < 0x800000 := by
  unfold Continues
  rw [primed_lsb h]
  have masked : (s.listAddr &&& 0x007FFFFF#32).toNat = s.listAddr.toNat % 0x800000 := by
    rw [BitVec.toNat_and]
    exact Nat.and_two_pow_sub_one_eq_mod _ 23
  have same : (s.listAddr &&& 0x007FFFFF#32 = s.listAddr) ↔
      s.listAddr.toNat % 0x800000 = s.listAddr.toNat := by
    rw [← BitVec.toNat_inj, masked]
  exact same.trans (by omega)

/-- The two copies agree after every run, and after every fetch the registers
hold the list pointer: `$D705` goes on with the next job, `$D700` where the
pointer lies below eight megabytes. -/
theorem mirrors_consistent (b : Board ι) (w : World ι) (experimental : Bool) (es : List (Event ι)) :
    Mirrored (es.foldl (step b) ({ init with experimentalDmaOps := experimental }, w)).1 ∧
    ∀ (mem : BitVec 28 → BitVec 8) (s : Dma),
      let s' := fetchAndBeginNextJob mem s
      Synced s' ∧
      (∀ c : Wiring ι, ∀ mem' etrig,
        ioWrite c mem' s' (if etrig then 0x05 else 0x00) (ioRead s' 0x00) =
          { fetchAndBeginNextJob mem' (primed s' etrig (ioRead s' 0x00)) with active := true }) ∧
      Continues s' true ∧
      (Continues s' false ↔ s'.listAddr.toNat < 0x800000) := by
  refine ⟨run_mirrored b (cleared_mirrored rfl) es, ?_⟩
  intro mem s s'
  have synced : Synced s' := fetch_holds_pointer mem s
  exact ⟨synced, fun c mem' etrig => ioWrite_primed c mem' s' etrig _, continues_etrig synced,
    continues_lsb_iff synced⟩

/-! ## A list above eight megabytes -/

def lonelyBoard : Board Unit :=
  { base := 0xD700, mapController := none
    ahead := { dispatchRead := fun io _ => (none, io), dispatchWrite := fun _ _ _ => none }
    behind := { dispatchRead := fun io _ => (none, io), dispatchWrite := fun _ _ _ => none } }

def zeroWorld : World Unit := { mem := fun _ => 0, io := () }

/-- `ADDRMB` set to `$08`, and the job list at `$0800000` started through `$D705`. -/
def startedHigh : Dma :=
  ioWrite lonelyBoard.wiring zeroWorld.mem (ioWrite lonelyBoard.wiring zeroWorld.mem init 0x04 0x08)
    0x05 0x00

theorem startedHigh_synced : Synced startedHigh :=
  (fetch_holds_pointer zeroWorld.mem _).of_sameList ⟨rfl, rfl, rfl⟩

theorem startedHigh_listAddr : startedHigh.listAddr = 0x080000C#32 := by
  decide

theorem lsb_trigger_goes_back :
    ¬∀ (b : Board Unit) (w : World Unit) (es : List (Event Unit)) (val : BitVec 8),
      let s := (step b (es.foldl (step b) (init, w)) (.write 0x05 val)).1
      Continues s false := by
  intro always
  have here : Continues startedHigh false := always lonelyBoard zeroWorld [.write 0x04 0x08] 0x00
  rw [continues_lsb_iff startedHigh_synced, startedHigh_listAddr] at here
  exact absurd here (by decide)

end Mmemu.Guarantees.DmaMirrors
