import Mmemu.Library.Runs
import Mmemu.Library.RingQueue
import Mmemu.Source.AudioDma

/-!
# Audio DMA: frames come out once, in order

The ring is a queue of whole frames: a frame pushed while there is room goes behind those that
wait, and `pullSamples` takes from the front. How many it takes is off: the count is halved to
frames twice.
-/
namespace Mmemu.Guarantees.AudioFrames
open Mmemu.Library.GuardedRun Mmemu.Library.RingQueue Mmemu.Source.AudioDma

/-! ## The ring as a queue -/

/-- Both places of the ring are at the left sample of a frame. -/
structure Framed (b : SampleBuffer) : Prop where
  size : b.size % 2 = 0
  write : b.m_sampleWriteIndex % 2 = 0
  read : b.m_sampleReadIndex % 2 = 0
  write_lt : b.m_sampleWriteIndex < b.size
  read_lt : b.m_sampleReadIndex < b.size

theorem framed_new : Framed .new := ⟨rfl, rfl, rfl, Nat.zero_lt_succ _, Nat.zero_lt_succ _⟩

/-- The samples that wait to be pulled, the oldest first. -/
def waiting (b : SampleBuffer) : List Float32 :=
  held b.m_sampleBuffer b.size b.m_sampleReadIndex b.samples_available

theorem waiting_new : waiting .new = [] := held_zero ..

section Places
variable {b : SampleBuffer} (h : Framed b)
include h

theorem Framed.available_lt : b.samples_available < b.size := by
  have := h.write_lt
  have := h.read_lt
  unfold SampleBuffer.samples_available
  split
  · omega
  · split <;> omega

theorem Framed.write_eq :
    (b.m_sampleReadIndex + b.samples_available) % b.size = b.m_sampleWriteIndex := by
  obtain ⟨size, write, read, write_lt, read_lt⟩ := h
  unfold SampleBuffer.samples_available
  split
  next before => rw [Nat.add_sub_of_le before.le, Nat.mod_eq_of_lt write_lt]
  next =>
    split
    next after =>
      have around : b.m_sampleReadIndex + (b.size - b.m_sampleReadIndex + b.m_sampleWriteIndex) =
          b.size + b.m_sampleWriteIndex := by omega
      rw [around, Nat.add_mod_left, Nat.mod_eq_of_lt write_lt]
    next =>
      rw [Nat.add_zero, Nat.mod_eq_of_lt read_lt]
      omega

theorem Framed.nextIndex_eq : b.nextIndex = (b.m_sampleWriteIndex + 2) % b.size := by
  obtain ⟨size, write, read, write_lt, read_lt⟩ := h
  unfold SampleBuffer.nextIndex
  split
  next around =>
    rw [Nat.mod_eq_sub_mod around, Nat.mod_eq_of_lt]
    omega
  next inside => rw [Nat.mod_eq_of_lt (by omega)]

/-- The next frame would close the ring exactly when all frames but one wait. -/
theorem Framed.full_iff :
    b.nextIndex = b.m_sampleReadIndex ↔ b.samples_available + 2 = b.size := by
  obtain ⟨size, write, read, write_lt, read_lt⟩ := h
  unfold SampleBuffer.nextIndex SampleBuffer.samples_available
  split
  next around => grind
  next inside => grind

end Places

/-! ## Frames pushed -/

theorem Framed.pushSample {b : SampleBuffer} (h : Framed b) (left right : Float32) :
    Framed (b.pushSample left right) := by
  unfold SampleBuffer.pushSample
  split
  · exact h
  · have next := h.nextIndex_eq
    obtain ⟨size, write, read, write_lt, read_lt⟩ := h
    refine ⟨size, ?_, read, ?_, read_lt⟩
    · change b.nextIndex % 2 = 0
      unfold SampleBuffer.nextIndex
      split <;> omega
    · change b.nextIndex < b.size
      rw [next]
      exact Nat.mod_lt _ (by omega)

theorem size_pushSample (b : SampleBuffer) (left right : Float32) :
    (b.pushSample left right).size = b.size := by
  unfold SampleBuffer.pushSample
  split <;> rfl

theorem available_pushSample {b : SampleBuffer} (h : Framed b)
    (room : b.samples_available + 2 < b.size) (left right : Float32) :
    (b.pushSample left right).samples_available = b.samples_available + 2 := by
  have free : b.nextIndex ≠ b.m_sampleReadIndex := by
    rw [Ne, h.full_iff]
    omega
  obtain ⟨size, write, read, write_lt, read_lt⟩ := h
  unfold SampleBuffer.pushSample
  rw [if_neg free]
  unfold SampleBuffer.nextIndex at free
  unfold SampleBuffer.samples_available at room ⊢
  unfold SampleBuffer.nextIndex
  dsimp only
  split at free <;> split at room <;> grind

/-- A frame pushed while there is room waits behind the others. -/
theorem waiting_pushSample {b : SampleBuffer} (h : Framed b)
    (room : b.samples_available + 2 < b.size) (left right : Float32) :
    waiting (b.pushSample left right) = waiting b ++ [left, right] := by
  have free : b.nextIndex ≠ b.m_sampleReadIndex := by
    rw [Ne, h.full_iff]
    omega
  unfold waiting
  rw [available_pushSample h room]
  unfold SampleBuffer.pushSample
  rw [if_neg free]
  have second : (b.m_sampleWriteIndex + 1) % b.size =
      (b.m_sampleReadIndex + (b.samples_available + 1)) % b.size := by
    rw [← h.write_eq, Nat.mod_add_mod, Nat.add_assoc]
  dsimp only
  rw [second, ← h.write_eq, held_update _ (by omega), held_update _ (by omega)]
  simp

theorem waiting_foldl_pushSample {b : SampleBuffer} (h : Framed b) (samples : List Float32)
    (room : b.samples_available + 2 * samples.length < b.size) :
    waiting (samples.foldl (fun b s => b.pushSample s s) b) =
      waiting b ++ samples.flatMap fun s => [s, s] := by
  induction samples generalizing b with
  | nil => simp
  | cons s rest ih =>
    rw [List.length_cons] at room
    have first : b.samples_available + 2 < b.size := by omega
    rw [List.foldl_cons, ih (h.pushSample s s), waiting_pushSample h first]
    · simp
    · rw [available_pushSample h first, size_pushSample]
      omega

theorem Framed.foldl_pushSample {b : SampleBuffer} (h : Framed b) (samples : List Float32) :
    Framed (samples.foldl (fun b s => b.pushSample s s) b) := by
  induction samples generalizing b with
  | nil => exact h
  | cons s rest ih => exact ih (h.pushSample s s)

/-! ## Frames pulled -/

theorem copyOut_eq {b : SampleBuffer} (inside : b.m_sampleReadIndex < b.size) (n : ℕ) :
    b.copyOut n = (held b.m_sampleBuffer b.size b.m_sampleReadIndex n,
      { b with m_sampleReadIndex := (b.m_sampleReadIndex + n) % b.size }) := by
  induction n generalizing b with
  | zero => simp [SampleBuffer.copyOut, Nat.mod_eq_of_lt inside]
  | succ n ih =>
    have next : (b.m_sampleReadIndex + 1) % b.size < b.size := Nat.mod_lt _ (by omega)
    have on : b.m_sampleReadIndex + 1 + n = b.m_sampleReadIndex + (n + 1) := by omega
    rw [SampleBuffer.copyOut, ih next, held_cons, Nat.mod_eq_of_lt inside, Nat.mod_add_mod, on]

theorem available_readOn {b : SampleBuffer} (h : Framed b) {n : ℕ} (le : n ≤ b.samples_available) :
    SampleBuffer.samples_available
      { b with m_sampleReadIndex := (b.m_sampleReadIndex + n) % b.size } =
      b.samples_available - n := by
  have room := h.available_lt
  obtain ⟨size, write, read, write_lt, read_lt⟩ := h
  have place : (b.m_sampleReadIndex + n) % b.size =
      if b.size ≤ b.m_sampleReadIndex + n then b.m_sampleReadIndex + n - b.size
      else b.m_sampleReadIndex + n := by
    split
    next around =>
      rw [Nat.mod_eq_sub_mod around, Nat.mod_eq_of_lt]
      omega
    next inside => exact Nat.mod_eq_of_lt (by omega)
  unfold SampleBuffer.samples_available at room le ⊢
  dsimp only
  rw [place]
  grind

/-- Frames taken off the front are the oldest samples, and the others still wait. -/
theorem copyOut_oldest {b : SampleBuffer} (h : Framed b) {n : ℕ} (le : n ≤ b.samples_available) :
    (b.copyOut n).1 = (waiting b).take n ∧ waiting (b.copyOut n).2 = (waiting b).drop n := by
  rw [copyOut_eq h.read_lt]
  constructor
  · exact (take_held _ _ le).symm
  · unfold waiting
    rw [available_readOn h le, drop_held]

theorem Framed.copyOut {b : SampleBuffer} (h : Framed b) {n : ℕ} (even : n % 2 = 0) :
    Framed (b.copyOut n).2 := by
  rw [copyOut_eq h.read_lt]
  obtain ⟨size, write, read, write_lt, read_lt⟩ := h
  refine ⟨size, write, ?_, write_lt, Nat.mod_lt _ (by omega)⟩
  change (b.m_sampleReadIndex + n) % b.size % 2 = 0
  rw [Nat.mod_mod_of_dvd _ (Nat.dvd_of_mod_eq_zero size)]
  omega

/-! ## One call -/

/-- The frames that wait. -/
def frames (b : SampleBuffer) : ℕ := b.samples_available / 2

/-- The call hands out the oldest frames, as many as wait or as were asked for. -/
structure TakesOldest (b : SampleBuffer) (n : BitVec 32) : Prop where
  result : (b.pullSamples n).result = min n.toInt (frames b)
  buffer : (b.pullSamples n).buffer = (waiting b).take (2 * (min n.toInt (frames b)).toNat)
  left : waiting (b.pullSamples n).ring = (waiting b).drop (2 * (min n.toInt (frames b)).toNat)

/-- Twice the frames asked for wait, or none do; and twice the count is a count. -/
def Doubled (b : SampleBuffer) (n : BitVec 32) : Prop :=
  -2 ^ 30 ≤ n.toInt ∧ n.toInt < 2 ^ 30 ∧ (n.toInt < 0 ∨ frames b = 0 ∨ 2 * n.toInt ≤ frames b)

theorem toInt_mul_two (n : BitVec 32) :
    (n * 2).toInt =
      if n.toInt < -2 ^ 30 then n.toInt * 2 + 2 ^ 32
      else if n.toInt < 2 ^ 30 then n.toInt * 2
      else n.toInt * 2 - 2 ^ 32 := by
  have low := BitVec.le_toInt n
  have high := BitVec.toInt_lt (x := n)
  rw [BitVec.toInt_mul]
  change (n.toInt * 2).bmod (2 ^ 32) = _
  split
  next under => rw [← Int.add_bmod_right, Int.bmod_eq_of_le] <;> omega
  next =>
    split
    next => rw [Int.bmod_eq_of_le] <;> omega
    next => rw [← Int.sub_bmod_right, Int.bmod_eq_of_le] <;> omega

theorem tdiv_two (x : ℤ) : x.tdiv 2 = if 0 ≤ x then x / 2 else -(-x / 2) := by
  split
  next nonneg => exact Int.tdiv_eq_ediv_of_nonneg nonneg
  next neg =>
    rw [← Int.tdiv_eq_ediv_of_nonneg (by omega), Int.neg_tdiv, Int.neg_neg]

theorem samples_to_pull_eq_iff {b : SampleBuffer} (n : BitVec 32) :
    b.samples_to_pull n = min n.toInt (frames b) ↔ Doubled b n := by
  have low := BitVec.le_toInt n
  have high := BitVec.toInt_lt (x := n)
  unfold SampleBuffer.samples_to_pull Doubled
  rw [toInt_mul_two, tdiv_two]
  change (if 0 ≤ min (frames b : ℤ) _ then min (frames b : ℤ) _ / 2 else _) = _ ↔ _
  split
  next under => omega
  next =>
    split
    next => omega
    next past => omega

/-- What a call takes never reaches past the frames that wait. -/
theorem samples_to_pull_le (b : SampleBuffer) (n : BitVec 32) :
    (b.samples_to_pull n * 2).toNat ≤ b.samples_available := by
  unfold SampleBuffer.samples_to_pull
  rw [tdiv_two]
  split <;> omega

theorem takesOldest_iff {b : SampleBuffer} (h : Framed b) (n : BitVec 32) :
    TakesOldest b n ↔ Doubled b n := by
  constructor
  · intro oldest
    exact (samples_to_pull_eq_iff n).mp oldest.result
  · intro doubled
    have count := (samples_to_pull_eq_iff n).mpr doubled
    have out := copyOut_oldest h (samples_to_pull_le b n)
    have same : 2 * (min n.toInt (frames b)).toNat = (b.samples_to_pull n * 2).toNat := by
      rw [count]
      omega
    refine ⟨count, ?_, ?_⟩
    · rw [same]
      exact out.1
    · rw [same]
      exact out.2

theorem Framed.pullSamples {b : SampleBuffer} (h : Framed b) (n : BitVec 32) :
    Framed (b.pullSamples n).ring := by
  refine h.copyOut (n := (b.samples_to_pull n * 2).toNat) ?_
  omega

/-- No sample is lost by a call, or taken twice. -/
theorem pullSamples_append {b : SampleBuffer} (h : Framed b) (n : BitVec 32) :
    (b.pullSamples n).buffer ++ waiting (b.pullSamples n).ring = waiting b := by
  have out := copyOut_oldest h (samples_to_pull_le b n)
  unfold SampleBuffer.pullSamples
  dsimp only
  rw [out.1, out.2, List.take_append_drop]

/-! ## What a tick produces -/

/-- The samples a channel plays in so many cycles. -/
def played (mem : BitVec 32 → BitVec 8) : ℕ → AudioChannel → List Float32
  | 0, _ => []
  | n + 1, c =>
    let (c, sample) := c.cycle mem
    sample.toList ++ if c.stopped then [] else played mem n c

theorem cycles_ring (mem : BitVec 32 → BitVec 8) (n : ℕ) (c : AudioChannel) (b : SampleBuffer) :
    (c.cycles mem n b).2 = (played mem n c).foldl (fun b s => b.pushSample s s) b := by
  induction n generalizing c b with
  | zero => simp [AudioChannel.cycles, played]
  | succ n ih =>
    unfold AudioChannel.cycles played
    cases c.cycle mem with
    | mk c' sample =>
      by_cases stopped : c'.stopped
      · cases sample <;> simp [stopped]
      · cases sample <;> simp [stopped, ih]

def channelPlays (mem : BitVec 32 → BitVec 8) (n : ℕ) (c : AudioChannel) : List Float32 :=
  if !c.enabled || c.stopped then [] else played mem n c

theorem tickChannel_ring (mem : BitVec 32 → BitVec 8) (n : ℕ) (c : AudioChannel)
    (b : SampleBuffer) :
    (c.tickChannel mem n b).2 = (channelPlays mem n c).foldl (fun b s => b.pushSample s s) b := by
  unfold AudioChannel.tickChannel channelPlays
  split
  · simp
  · exact cycles_ring mem n c b

theorem channels_ring (mem : BitVec 32 → BitVec 8) (n : ℕ) (d : AudioDmaDevice)
    {channels : List (Fin 4)} (distinct : channels.Nodup) :
    (channels.foldl (AudioDmaDevice.tickChannel mem n) d).ring =
      (channels.flatMap fun ch => channelPlays mem n (d.m_channels ch)).foldl
        (fun b s => b.pushSample s s) d.ring := by
  induction channels generalizing d with
  | nil => simp
  | cons ch rest ih =>
    obtain ⟨other, distinct⟩ := List.nodup_cons.mp distinct
    have same : (rest.flatMap fun ch' =>
        channelPlays mem n ((d.tickChannel mem n ch).m_channels ch')) =
        rest.flatMap fun ch' => channelPlays mem n (d.m_channels ch') := by
      refine List.flatMap_congr fun ch' mem' => ?_
      have ne : ch' ≠ ch := fun same => other (same ▸ mem')
      simp [AudioDmaDevice.tickChannel, ne]
    rw [List.foldl_cons, ih (d.tickChannel mem n ch) distinct, same, List.flatMap_cons,
      List.foldl_append, ← tickChannel_ring]
    rfl

/-- The samples a tick of the device plays, channel after channel. -/
def devicePlays (d : AudioDmaDevice) (mem : BitVec 32 → BitVec 8) (cycles : ℕ) : List Float32 :=
  if !d.m_bus || d.m_audioControlReg &&& 0x80 = 0 then []
  else (List.finRange 4).flatMap fun ch => channelPlays mem cycles (d.m_channels ch)

theorem tick_ring (d : AudioDmaDevice) (mem : BitVec 32 → BitVec 8) (cycles : ℕ) :
    (d.tick mem cycles).ring =
      (devicePlays d mem cycles).foldl (fun b s => b.pushSample s s) d.ring := by
  unfold AudioDmaDevice.tick devicePlays
  split
  · simp
  · exact channels_ring mem cycles d (List.nodup_finRange 4)

theorem ioWrite_ring (d : AudioDmaDevice) (addr : BitVec 32) (val : BitVec 8) :
    (d.ioWrite addr val).ring = d.ring := by
  unfold AudioDmaDevice.ioWrite
  dsimp only
  split
  · rfl
  · split <;> rfl

/-! ## Runs -/

inductive Event where
  | tick (mem : BitVec 32 → BitVec 8) (cycles : ℕ)
  | write (addr : BitVec 32) (val : BitVec 8)
  | pull (n : BitVec 32)

/-- A device with the samples of all frames produced and of all frames handed out. -/
structure Trace where
  device : AudioDmaDevice
  made : List Float32
  taken : List Float32

def Trace.start (baseAddr : BitVec 32) : Trace := ⟨.new baseAddr, [], []⟩

def follow (t : Trace) : Event → Trace
  | .tick mem cycles =>
    { t with
      device := t.device.tick mem cycles
      made := t.made ++ (devicePlays t.device mem cycles).flatMap fun s => [s, s] }
  | .write addr val => { t with device := t.device.ioWrite addr val }
  | .pull n =>
    { t with
      device := { t.device with ring := (t.device.ring.pullSamples n).ring }
      taken := t.taken ++ (t.device.ring.pullSamples n).buffer }

/-- The tick's frames find room: with them the ring is not yet full. -/
def Roomy (t : Trace) : Event → Prop
  | .tick mem cycles =>
    t.device.ring.samples_available + 2 * (devicePlays t.device mem cycles).length <
      t.device.ring.size
  | _ => True

/-- A call takes the oldest frames. -/
def Oldest (t : Trace) : Event → Prop
  | .pull n => TakesOldest t.device.ring n
  | _ => True

def Meets (t : Trace) : Event → Prop
  | .pull n => Doubled t.device.ring n
  | _ => True

/-- Every call takes the oldest frames, and while there is room every frame is handed out once
or waits. -/
structure InOrder (start : Trace) (events : List Event) : Prop where
  calls : Guarded follow Oldest start events
  once : Guarded follow Roomy start events →
    (events.foldl follow start).taken ++ waiting (events.foldl follow start).device.ring =
      (events.foldl follow start).made

theorem framed_follow {t : Trace} (h : Framed t.device.ring) (e : Event) :
    Framed (follow t e).device.ring := by
  cases e with
  | tick mem cycles =>
    unfold follow
    dsimp only
    rw [tick_ring]
    exact h.foldl_pushSample _
  | write addr val =>
    unfold follow
    dsimp only
    rw [ioWrite_ring]
    exact h
  | pull n => exact h.pullSamples n

/-- What was handed out and what waits are all the frames produced. -/
structure Conserves (t : Trace) : Prop where
  framed : Framed t.device.ring
  once : t.taken ++ waiting t.device.ring = t.made

theorem conserves_follow {t : Trace} (h : Conserves t) {e : Event} (room : Roomy t e) :
    Conserves (follow t e) := by
  refine ⟨framed_follow h.framed e, ?_⟩
  cases e with
  | tick mem cycles =>
    unfold follow
    dsimp only
    rw [tick_ring, waiting_foldl_pushSample h.framed _ room, ← List.append_assoc, h.once]
  | write addr val =>
    unfold follow
    dsimp only
    rw [ioWrite_ring, h.once]
  | pull n =>
    unfold follow
    dsimp only
    rw [List.append_assoc, pullSamples_append h.framed, h.once]

theorem conserves_start (baseAddr : BitVec 32) : Conserves (.start baseAddr) :=
  ⟨framed_new, by simp [Trace.start, AudioDmaDevice.new, waiting_new]⟩

theorem oldest_iff {t : Trace} (h : Framed t.device.ring) (e : Event) :
    Oldest t e ↔ Meets t e := by
  cases e with
  | pull n => exact takesOldest_iff h n
  | tick mem cycles => exact Iff.rfl
  | write addr val => exact Iff.rfl

/-- The frames of a run come out once and in order exactly when at every call twice the frames
asked for wait, or none do. -/
theorem frames_in_order_iff (baseAddr : BitVec 32) (events : List Event) :
    InOrder (.start baseAddr) events ↔ Guarded follow Meets (.start baseAddr) events := by
  have framed : Framed (Trace.start baseAddr).device.ring := framed_new
  have keeps : ∀ guard : Trace → Event → Prop, ∀ t e, Framed t.device.ring → guard t e →
      Framed (follow t e).device.ring := fun _ _ e h _ => framed_follow h e
  constructor
  · intro inOrder
    exact inOrder.calls.mono follow (fun t => Framed t.device.ring) (keeps Oldest)
      (fun _ e h => (oldest_iff h e).mp) framed
  · intro meets
    refine ⟨meets.mono follow (fun t => Framed t.device.ring) (keeps Meets)
      (fun _ e h => (oldest_iff h e).mpr) framed, fun room => ?_⟩
    exact (foldl_invariant follow Roomy Conserves (fun _ _ h => conserves_follow h) _ _
      (conserves_start baseAddr) room).once

/-- One frame waits, one is asked for, none is handed out. -/
theorem not_in_order_one_frame :
    ¬ InOrder (.start 0xD710)
      [.write 0xD711 0x80, .write 0xD720 0xA0, .write 0xD726 0xFF, .tick (fun _ => 0) 2, .pull 1] := by
  intro inOrder
  obtain ⟨-, -, -, -, call, -⟩ := inOrder.calls
  have count := call.result
  revert count
  decide

end Mmemu.Guarantees.AudioFrames
