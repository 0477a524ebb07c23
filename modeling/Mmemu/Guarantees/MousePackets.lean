import Mathlib.Algebra.BigOperators.Group.List.Basic
import Mathlib.Algebra.Group.Prod
import Mmemu.Library.Runs
import Mmemu.Library.RingQueue
import Mmemu.Source.X16I2c

/-!
# Mouse packets of the X16

What a master hears from the mouse are whole packets and single zeros between them, and no
movement is lost while packets fit in the queue. A mouse ID set inside a packet clears the queue
but not the position in the packet; one set between packets drops those that are queued.
-/
namespace Mmemu.Guarantees.MousePackets
open Mmemu.Library.GuardedRun Mmemu.Library.RingQueue Mmemu.Source.X16I2c

/-! ## The ring -/

structure Ring (s : Smc) : Prop where
  head : s.mseHead < MSE_SIZE
  tail : s.mseTail < MSE_SIZE

/-- The bytes queued, the oldest first. -/
def bytes (s : Smc) : List Byte := held s.mse MSE_SIZE s.mseTail s.mseQueued

theorem length_bytes (s : Smc) : (bytes s).length = s.mseQueued := length_held ..

theorem Ring.head_eq {s : Smc} (ring : Ring s) : s.mseHead = (s.mseTail + s.mseQueued) % MSE_SIZE := by
  obtain ⟨head, tail⟩ := ring
  unfold Smc.mseQueued
  unfold MSE_SIZE at *
  omega

/-- What the queue's users leave alone. -/
structure SameButQueue (s s' : Smc) : Prop where
  count : s'.mseCount = s.mseCount
  id : s'.mouseId = s.mouseId
  buffer : s'.buffer = s.buffer
  state : s'.defaultReadState = s.defaultReadState
  op : s'.defaultReadOp = s.defaultReadOp

theorem SameButQueue.trans {s s' s'' : Smc} (one : SameButQueue s s') (two : SameButQueue s' s'') :
    SameButQueue s s'' :=
  ⟨two.count.trans one.count, two.id.trans one.id, two.buffer.trans one.buffer,
    two.state.trans one.state, two.op.trans one.op⟩

theorem mseAdd_spec {s : Smc} (ring : Ring s) (room : s.mseQueued + 1 < MSE_SIZE) (v : Byte) :
    Ring (s.mseAdd v) ∧ bytes (s.mseAdd v) = bytes s ++ [v] ∧
      (s.mseAdd v).mseQueued = s.mseQueued + 1 ∧ SameButQueue s (s.mseAdd v) := by
  have at_ := ring.head_eq
  obtain ⟨head, tail⟩ := ring
  have free : (s.mseHead + 1) % MSE_SIZE ≠ s.mseTail := by
    unfold Smc.mseQueued at room
    unfold MSE_SIZE at *
    omega
  have added : s.mseAdd v =
      { s with mse := Function.update s.mse s.mseHead v, mseHead := (s.mseHead + 1) % MSE_SIZE } := by
    unfold Smc.mseAdd
    exact if_neg free
  have queued : (s.mseAdd v).mseQueued = s.mseQueued + 1 := by
    rw [added]
    unfold Smc.mseQueued at room ⊢
    dsimp only
    unfold MSE_SIZE at *
    omega
  refine ⟨?_, ?_, queued, ?_⟩
  · rw [added]
    exact ⟨Nat.mod_lt _ (by decide), tail⟩
  · unfold bytes
    rw [queued, added]
    dsimp only
    rw [at_]
    exact held_update s.mse (by omega) v
  · rw [added]
    exact ⟨rfl, rfl, rfl, rfl, rfl⟩

theorem mseNext_spec {s : Smc} (ring : Ring s) {v : Byte} {rest : List Byte} (some_ : bytes s = v :: rest) :
    s.mseNext.1 = v ∧ Ring s.mseNext.2 ∧ bytes s.mseNext.2 = rest ∧ SameButQueue s s.mseNext.2 := by
  have queued := length_bytes s
  rw [some_, List.length_cons] at queued
  have apart : s.mseHead ≠ s.mseTail := by
    intro same
    unfold Smc.mseQueued at queued
    rw [same] at queued
    simp at queued
  obtain ⟨head, tail⟩ := ring
  have next : s.mseNext = (s.mse s.mseTail, { s with mseTail := (s.mseTail + 1) % MSE_SIZE }) := by
    unfold Smc.mseNext
    exact if_neg apart
  have fewer : ({ s with mseTail := (s.mseTail + 1) % MSE_SIZE } : Smc).mseQueued = rest.length := by
    unfold Smc.mseQueued at queued ⊢
    dsimp only
    unfold MSE_SIZE at *
    omega
  unfold bytes at some_
  rw [← queued, held_cons, Nat.mod_eq_of_lt tail] at some_
  obtain ⟨first, others⟩ := List.cons.inj some_
  rw [next]
  refine ⟨first, ⟨head, Nat.mod_lt _ (by decide)⟩, ?_, ⟨rfl, rfl, rfl, rfl, rfl⟩⟩
  unfold bytes
  rw [fewer]
  exact others

/-! ## A packet -/

/-- A packet of a size, whose first byte has bit 3 set. -/
def Whole (size : ℕ) (p : List Byte) : Prop :=
  p.length = size ∧ ∃ first ∈ p.head?, first.getLsbD 3 = true

def signed (on : Bool) (v : Byte) : ℤ := v.toNat - if on then 256 else 0

/-- The movement to the right and up that a packet tells. -/
def movement : List Byte → ℤ × ℤ
  | first :: x :: y :: _ => (signed (first.getLsbD 4) x, signed (first.getLsbD 5) y)
  | _ => 0

def packet (size : ℕ) (x y : ℤ) (b w : Byte) : List Byte :=
  (bitAt (Mouse.sign y) 5 ||| bitAt (Mouse.sign x) 4 ||| bitAt true 3 ||| b) ::
    BitVec.ofInt 8 x :: BitVec.ofInt 8 y :: if size = 4 then [w] else []

theorem size_cases (s : Smc) : s.mousePacketSize = 3 ∨ s.mousePacketSize = 4 := by
  unfold Smc.mousePacketSize
  split
  · exact .inr rfl
  · exact .inl rfl

theorem whole_packet {size : ℕ} (sizes : size = 3 ∨ size = 4) (x y : ℤ) (b w : Byte) :
    Whole size (packet size x y b w) := by
  have marked : ∀ (sy sx : Bool) (b : Byte),
      (bitAt sy 5 ||| bitAt sx 4 ||| bitAt true 3 ||| b).getLsbD 3 = true := by decide
  refine ⟨?_, _, rfl, marked _ _ b⟩
  obtain rfl | rfl := sizes <;> rfl

theorem signed_ofInt {x : ℤ} (low : -256 ≤ x) (high : x ≤ 255) :
    signed (Mouse.sign x) (BitVec.ofInt 8 x) = x := by
  have bit : Mouse.sign x = decide (x < 0) := by
    unfold Mouse.sign
    rw [Int.shiftRight_eq_div_pow]
    exact decide_eq_decide.mpr (by omega)
  rw [signed, bit, BitVec.toNat_ofInt]
  by_cases negative : x < 0
  · rw [decide_eq_true negative]
    simp
    omega
  · rw [decide_eq_false negative]
    simp
    omega

theorem movement_packet {size : ℕ} {x y : ℤ} (xs : -256 ≤ x ∧ x ≤ 255) (ys : -256 ≤ y ∧ y ≤ 255)
    {b : Byte} (three : b.toNat < 8) (w : Byte) : movement (packet size x y b w) = (x, y) := by
  have signs : ∀ (sy sx : Bool) (b : Byte), b.toNat < 8 →
      (bitAt sy 5 ||| bitAt sx 4 ||| bitAt true 3 ||| b).getLsbD 4 = sx ∧
        (bitAt sy 5 ||| bitAt sx 4 ||| bitAt true 3 ||| b).getLsbD 5 = sy := by decide
  obtain ⟨sx, sy⟩ := signs (Mouse.sign y) (Mouse.sign x) b three
  rw [packet, movement, sx, sy, signed_ofInt xs.1 xs.2, signed_ofInt ys.1 ys.2]

/-- The next packet fits in the queue. -/
def Room (m : Mouse) : Prop := m.mseQueued < MSE_SIZE - m.mousePacketSize

instance (m : Mouse) : Decidable (Room m) := inferInstanceAs (Decidable (_ < _))

/-- A packet that does not fit is dropped as a whole. -/
theorem mouseSend_spec {m : Mouse} (ring : Ring m.toSmc) (x y : ℤ) (b w : Byte) :
    ∃ s, m.mouseSend x y b w = { m with toSmc := s } ∧ Ring s ∧ SameButQueue m.toSmc s ∧
      bytes s = bytes m.toSmc ++
        if Room m then packet m.mousePacketSize x y b w else [] := by
  unfold Mouse.mouseSend
  dsimp only
  by_cases room : Room m
  · rw [if_neg (Nat.not_le.mpr room), if_pos room]
    unfold Room at room
    have sizes := size_cases m.toSmc
    have least : m.mseQueued + 3 < MSE_SIZE := by
      unfold MSE_SIZE at *
      omega
    obtain ⟨ring1, bytes1, count1, same1⟩ := mseAdd_spec ring (by omega)
      (bitAt (Mouse.sign y) 5 ||| bitAt (Mouse.sign x) 4 ||| bitAt true 3 ||| b)
    obtain ⟨ring2, bytes2, count2, same2⟩ := mseAdd_spec ring1 (by omega) (BitVec.ofInt 8 x)
    obtain ⟨ring3, bytes3, count3, same3⟩ := mseAdd_spec ring2 (by omega) (BitVec.ofInt 8 y)
    have same := (same1.trans same2).trans same3
    rw [bytes2, bytes1, List.append_assoc, List.append_assoc] at bytes3
    refine ⟨_, rfl, ?_⟩
    by_cases four : m.mousePacketSize = 4
    · rw [if_pos four]
      obtain ⟨ring4, bytes4, -, same4⟩ := mseAdd_spec ring3 (by unfold MSE_SIZE at *; omega) w
      refine ⟨ring4, same.trans same4, ?_⟩
      rw [bytes4, bytes3, packet, if_pos four, List.append_assoc]
      rfl
    · rw [if_neg four]
      refine ⟨ring3, same, ?_⟩
      rw [bytes3, packet, if_neg four]
      rfl
  · rw [if_pos (Nat.not_lt.mp room), if_neg room, List.append_nil]
    exact ⟨m.toSmc, rfl, ring, ⟨rfl, rfl, rfl, rfl, rfl⟩, rfl⟩

/-! ## What is heard -/

/-- A byte that a mouse read returned, with the packet size and the bytes queued at the time. -/
structure Heard where
  size : ℕ
  queued : ℕ
  byte : Byte
  deriving DecidableEq, Repr

/-- A single zero while no whole packet is queued. -/
def Idle (c : List Heard) : Prop := ∃ e, c = [e] ∧ e.byte = 0 ∧ e.queued < e.size

/-- A whole packet of the size of its time. -/
def Packet (c : List Heard) : Prop :=
  ∃ size, Whole size (c.map Heard.byte) ∧ ∀ e ∈ c, e.size = size

/-- A packet of which some bytes have been read and some have not. -/
structure Begun (size : ℕ) (part : List Heard) (rest : List Byte) : Prop where
  some_ : part ≠ []
  more : rest ≠ []
  whole : Whole size (part.map Heard.byte ++ rest)
  sizes : ∀ e ∈ part, e.size = size

/-- What has been heard and what is queued, packet by packet. -/
structure Book where
  chunks : List (List Heard)
  part : List Heard
  rest : List Byte
  queue : List (List Byte)

/-- The movement that was heard or is queued. -/
def Book.moved (b : Book) : ℤ × ℤ :=
  (b.chunks.map fun c => movement (c.map Heard.byte)).sum +
    movement (b.part.map Heard.byte ++ b.rest) + (b.queue.map movement).sum

structure Keeps (s : Smc) (heard : List Heard) (b : Book) : Prop where
  ring : Ring s
  heard : heard = b.chunks.flatten ++ b.part
  chunks : ∀ c ∈ b.chunks, Idle c ∨ Packet c
  bytes : bytes s = b.rest ++ b.queue.flatten
  queue : ∀ q ∈ b.queue, Whole s.mousePacketSize q
  count : s.mseCount = b.part.length
  part : b.part = [] ∧ b.rest = [] ∨ Begun s.mousePacketSize b.part b.rest

/-- The queue and the place in the packet are the same. -/
structure Still (s s' : Smc) : Prop where
  mse : s'.mse = s.mse
  head : s'.mseHead = s.mseHead
  tail : s'.mseTail = s.mseTail
  count : s'.mseCount = s.mseCount
  id : s'.mouseId = s.mouseId

variable {s s' : Smc} {heard : List Heard} {b : Book}

theorem mousePacketSize_congr (id : s'.mouseId = s.mouseId) :
    s'.mousePacketSize = s.mousePacketSize := by
  simp only [Smc.mousePacketSize, id]

theorem Keeps.still (keeps : Keeps s heard b) (still : Still s s') : Keeps s' heard b := by
  have size := mousePacketSize_congr still.id
  have queued : s'.mseQueued = s.mseQueued := by simp only [Smc.mseQueued, still.head, still.tail]
  refine ⟨⟨?_, ?_⟩, keeps.heard, keeps.chunks, ?_, ?_, still.count.trans keeps.count, ?_⟩
  · rw [still.head]
    exact keeps.ring.head
  · rw [still.tail]
    exact keeps.ring.tail
  · rw [MousePackets.bytes, still.mse, still.tail, queued]
    exact keeps.bytes
  · rw [size]
    exact keeps.queue
  · rw [size]
    exact keeps.part

theorem Whole.ne_nil {size : ℕ} {p : List Byte} (whole : Whole size p) : p ≠ [] := by
  obtain ⟨-, first, mem, -⟩ := whole
  intro none_
  simp [none_] at mem

/-! ## Reading -/

theorem part_of_count (keeps : Keeps s heard b) (none_ : s.mseCount = 0) : b.part = [] ∧ b.rest = [] := by
  rcases keeps.part with outside | begun
  · exact outside
  · have count := keeps.count
    rw [none_] at count
    exact absurd (List.length_eq_zero_iff.mp count.symm) begun.some_

/-- The first byte of a packet. -/
theorem readMouse_first (keeps : Keeps s heard b) (none_ : s.mseCount = 0)
    (enough : s.mousePacketSize ≤ s.mseQueued) :
    ∃ b', Keeps s.readMouse.2 (heard ++ [⟨s.mousePacketSize, s.mseQueued, s.readMouse.1⟩]) b' ∧
      b'.moved = b.moved := by
  obtain ⟨noPart, noRest⟩ := part_of_count keeps none_
  obtain ⟨ring, log, chunks, queued, queue, count, -⟩ := keeps
  have length := length_bytes s
  have sizes := size_cases s
  rw [queued, noRest, List.nil_append] at length
  cases found : b.queue with
  | nil =>
    rw [found] at length
    simp at length
    omega
  | cons q qs =>
    rw [found] at queue queued
    obtain ⟨size, f, mem, marked⟩ := queue q (List.mem_cons_self ..)
    obtain ⟨q', rfl⟩ : ∃ q', q = f :: q' := by
      cases q with
      | nil => simp at mem
      | cons g q' => exact ⟨q', by simpa using mem⟩
    rw [noRest, List.nil_append, List.flatten_cons, List.cons_append] at queued
    obtain ⟨read, ring', rest, same⟩ :=
      mseNext_spec (s := { s with mseCount := s.mseCount + 1 }) ⟨ring.head, ring.tail⟩ queued
    have run : s.readMouse = { s with mseCount := s.mseCount + 1 }.mseNext := by
      unfold Smc.readMouse
      exact if_pos ⟨none_, enough⟩
    have id := mousePacketSize_congr (s := s) same.id
    rw [run, read]
    refine ⟨⟨b.chunks, [⟨s.mousePacketSize, s.mseQueued, f⟩], q', qs⟩, ⟨ring', ?_, chunks, rest, ?_, ?_, ?_⟩, ?_⟩
    · rw [log, noPart, List.append_nil]
    · rw [id]
      exact fun q mem => queue q (List.mem_cons_of_mem _ mem)
    · rw [same.count, none_]
      rfl
    · refine .inr ⟨List.cons_ne_nil _ _, ?_, ?_, ?_⟩
      · rintro rfl
        simp at size
        omega
      · rw [id]
        exact ⟨size, f, mem, marked⟩
      · rw [id]
        simp
    · have nothing : movement [] = 0 := rfl
      simp only [Book.moved, found, noPart, noRest, List.map_cons, List.map_nil, List.nil_append,
        List.cons_append, List.sum_cons, nothing, add_zero, add_assoc]

/-- A zero while no whole packet is queued. -/
theorem readMouse_idle (keeps : Keeps s heard b) (none_ : s.mseCount = 0)
    (few : s.mseQueued < s.mousePacketSize) :
    ∃ b', Keeps s.readMouse.2 (heard ++ [⟨s.mousePacketSize, s.mseQueued, s.readMouse.1⟩]) b' ∧
      b'.moved = b.moved := by
  obtain ⟨noPart, noRest⟩ := part_of_count keeps none_
  have run : s.readMouse = (0, { s with defaultReadState := 0 }) := by
    unfold Smc.readMouse
    dsimp only
    rw [if_neg fun start => Nat.not_le.mpr few start.2, if_neg (by omega)]
  have same : Keeps { s with defaultReadState := 0 } heard b := keeps.still ⟨rfl, rfl, rfl, rfl, rfl⟩
  rw [run]
  refine ⟨{ b with chunks := b.chunks ++ [[⟨s.mousePacketSize, s.mseQueued, 0⟩]] },
    ⟨same.ring, ?_, ?_, same.bytes, same.queue, same.count, same.part⟩, ?_⟩
  · rw [keeps.heard, noPart]
    simp
  · intro c mem
    rcases List.mem_append.mp mem with before | last
    · exact keeps.chunks c before
    · rw [List.mem_singleton.mp last]
      exact .inl ⟨_, rfl, rfl, few⟩
  · simp [Book.moved, movement]

/-- The next byte of a packet. -/
theorem readMouse_next (keeps : Keeps s heard b) (some_ : 0 < s.mseCount) :
    ∃ b', Keeps s.readMouse.2 (heard ++ [⟨s.mousePacketSize, s.mseQueued, s.readMouse.1⟩]) b' ∧
      b'.moved = b.moved := by
  obtain ⟨ring, log, chunks, queued, queue, count, part⟩ := keeps
  have sizes := size_cases s
  rcases part with ⟨noPart, -⟩ | ⟨-, more, whole, same⟩
  · rw [count, noPart] at some_
    exact absurd some_ (by simp)
  cases left : b.rest with
  | nil => exact absurd left more
  | cons r rest =>
    have length := whole.1
    rw [left] at length whole
    simp only [List.length_append, List.length_map, List.length_cons] at length
    rw [left, List.cons_append] at queued
    have round : (s.mseCount + 1) % 256 = b.part.length + 1 := by
      rw [count, Nat.mod_eq_of_lt (by omega)]
    obtain ⟨state, pos, run, place⟩ : ∃ state pos, s.readMouse =
        { s with mseCount := pos, defaultReadState := state }.mseNext ∧
          pos = if b.part.length + 1 = s.mousePacketSize then 0 else b.part.length + 1 := by
      unfold Smc.readMouse
      dsimp only
      rw [if_neg (by omega), if_pos some_, round]
      split
      · exact ⟨_, _, rfl, rfl⟩
      · exact ⟨_, _, rfl, rfl⟩
    obtain ⟨read, ring', others, kept⟩ :=
      mseNext_spec (s := { s with mseCount := pos, defaultReadState := state })
        ⟨ring.head, ring.tail⟩ queued
    have id := mousePacketSize_congr (s := s) kept.id
    have sizes' : ∀ e ∈ b.part ++ [⟨s.mousePacketSize, s.mseQueued, r⟩], e.size = s.mousePacketSize := by
      intro e mem
      rcases List.mem_append.mp mem with before | last
      · exact same e before
      · rw [List.mem_singleton.mp last]
    rw [run, read]
    by_cases last : b.part.length + 1 = s.mousePacketSize
    · obtain rfl : rest = [] := List.length_eq_zero_iff.mp (by omega)
      rw [if_pos last] at place
      refine ⟨⟨b.chunks ++ [b.part ++ [⟨s.mousePacketSize, s.mseQueued, r⟩]], [], [], b.queue⟩,
        ⟨ring', ?_, ?_, others, ?_, kept.count.trans place, .inl ⟨rfl, rfl⟩⟩, ?_⟩
      · rw [log]
        simp
      · intro c mem
        rcases List.mem_append.mp mem with before | here
        · exact chunks c before
        · rw [List.mem_singleton.mp here]
          exact .inr ⟨s.mousePacketSize, by simpa using whole, sizes'⟩
      · rw [id]
        exact queue
      · have nothing : movement [] = 0 := rfl
        simp [Book.moved, left, nothing, add_assoc]
    · rw [if_neg last] at place
      refine ⟨⟨b.chunks, b.part ++ [⟨s.mousePacketSize, s.mseQueued, r⟩], rest, b.queue⟩,
        ⟨ring', ?_, chunks, others, ?_, ?_, .inr ⟨by simp, ?_, ?_, ?_⟩⟩, ?_⟩
      · rw [log, List.append_assoc]
      · rw [id]
        exact queue
      · rw [kept.count]
        simpa using place
      · rintro rfl
        simp at length
        omega
      · rw [id]
        simpa using whole
      · rw [id]
        exact sizes'
      · simp [Book.moved, left]

theorem readMouse_keeps (keeps : Keeps s heard b) :
    ∃ b', Keeps s.readMouse.2 (heard ++ [⟨s.mousePacketSize, s.mseQueued, s.readMouse.1⟩]) b' ∧
      b'.moved = b.moved := by
  rcases Nat.eq_zero_or_pos s.mseCount with none_ | some_
  · rcases Nat.lt_or_ge s.mseQueued s.mousePacketSize with few | enough
    · exact readMouse_idle keeps none_ few
    · exact readMouse_first keeps none_ enough
  · exact readMouse_next keeps some_

/-! ## Sending -/

/-- The movement that the host has reported and no packet tells. -/
def pending (m : Mouse) : ℤ × ℤ := (m.mouseDx, m.mouseDy)

/-- Every packet of so many rounds fits. -/
def Fits : ℕ → Mouse → Prop
  | 0, _ => True
  | rounds + 1, m =>
    Room m ∧ (m.sendOne.mouseDx ≠ 0 ∧ m.sendOne.mouseDy ≠ 0 → Fits rounds m.sendOne)

theorem clamp_bounds (d : ℤ) : -256 ≤ Mouse.clamp d ∧ Mouse.clamp d ≤ 255 := by
  unfold Mouse.clamp
  omega

theorem sendOne_keeps {m : Mouse} (keeps : Keeps m.toSmc heard b) (three : m.mouseButtons.toNat < 8) :
    ∃ b', Keeps m.sendOne.toSmc heard b' ∧ m.sendOne.mouseButtons = m.mouseButtons ∧
      (Room m → b'.moved + pending m.sendOne = b.moved + pending m) := by
  obtain ⟨s, sent, ring, same, added⟩ := mouseSend_spec keeps.ring (Mouse.clamp m.mouseDx)
    (Mouse.clamp m.mouseDy) m.mouseButtons m.wheel
  have after : m.sendOne =
      { m with
        toSmc := s, mouseDx := m.mouseDx - Mouse.clamp m.mouseDx
        mouseDy := m.mouseDy - Mouse.clamp m.mouseDy, wheel := 0 } := by
    unfold Mouse.sendOne
    dsimp only
    rw [sent]
  have id := mousePacketSize_congr (s := m.toSmc) same.id
  rw [after]
  by_cases room : Room m
  · rw [if_pos room] at added
    refine ⟨{ b with queue := b.queue ++ [packet m.mousePacketSize (Mouse.clamp m.mouseDx)
        (Mouse.clamp m.mouseDy) m.mouseButtons m.wheel] },
      ⟨ring, keeps.heard, keeps.chunks, ?_, ?_, same.count.trans keeps.count, ?_⟩, rfl, fun _ => ?_⟩
    · rw [added, keeps.bytes]
      simp
    · rw [id]
      intro q mem
      rcases List.mem_append.mp mem with before | last
      · exact keeps.queue q before
      · rw [List.mem_singleton.mp last]
        exact whole_packet (size_cases m.toSmc) _ _ _ _
    · rw [id]
      exact keeps.part
    · have told : movement (packet m.mousePacketSize (Mouse.clamp m.mouseDx) (Mouse.clamp m.mouseDy)
          m.mouseButtons m.wheel) = (Mouse.clamp m.mouseDx, Mouse.clamp m.mouseDy) :=
        movement_packet (clamp_bounds m.mouseDx) (clamp_bounds m.mouseDy) three m.wheel
      simp only [Book.moved, List.map_append, List.sum_append, List.map_cons, List.map_nil, List.sum_cons,
        List.sum_nil, told, pending]
      ext
      · simp
        omega
      · simp
        omega
  · rw [if_neg room, List.append_nil] at added
    refine ⟨b, ⟨ring, keeps.heard, keeps.chunks, added.trans keeps.bytes, ?_, same.count.trans keeps.count, ?_⟩,
      rfl, fun here => absurd here room⟩
    · rw [id]
      exact keeps.queue
    · rw [id]
      exact keeps.part

theorem sendRounds_keeps (rounds : ℕ) {m : Mouse} (keeps : Keeps m.toSmc heard b)
    (three : m.mouseButtons.toNat < 8) :
    ∃ b', Keeps (m.sendRounds rounds).toSmc heard b' ∧ (m.sendRounds rounds).mouseButtons = m.mouseButtons ∧
      (Fits rounds m → b'.moved + pending (m.sendRounds rounds) = b.moved + pending m) := by
  induction rounds generalizing m b with
  | zero => exact ⟨b, keeps, rfl, fun _ => rfl⟩
  | succ rounds ih =>
    obtain ⟨b1, keeps1, buttons1, moved1⟩ := sendOne_keeps keeps three
    unfold Mouse.sendRounds
    dsimp only
    split
    next more =>
      obtain ⟨b2, keeps2, buttons2, moved2⟩ := ih keeps1 (buttons1 ▸ three)
      refine ⟨b2, keeps2, buttons2.trans buttons1, ?_⟩
      rintro ⟨room, rest⟩
      rw [moved2 (rest more), moved1 room]
    next => exact ⟨b1, keeps1, buttons1, fun fits => moved1 fits.1⟩

/-! ## Sessions -/

/-- What the host reports and what the bus asks of the SMC. -/
inductive Event where
  | move (dx dy : ℤ)
  | buttons (b : Byte)
  | wheel (y : ℤ)
  | send
  | key (code : Byte)
  | data (v : Byte)
  | read
  | write
  deriving DecidableEq, Repr

/-- The SMC, the bytes that mouse reads have returned, and the movement reported so far. -/
structure Session where
  mouse : Mouse
  heard : List Heard
  moved : ℤ × ℤ

def Session.start : Session := ⟨.new, [], 0⟩

/-- A read goes to the mouse, and not to the keyboard or to a register. -/
def HearsMouse (s : Smc) : Prop :=
  s.buffer 0 = 0x42 ∨ s.buffer 0 = 0x21 ∨ s.buffer 0 = 0x43 ∧ s.defaultReadState ≠ 0

instance (s : Smc) : Decidable (HearsMouse s) := inferInstanceAs (Decidable (_ ∨ _ ∨ _))

def Session.step (s : Session) : Event → Session
  | .move dx dy => { s with mouse := s.mouse.mouseMove dx dy, moved := s.moved + (dx, -dy) }
  | .buttons b => { s with mouse := s.mouse.pressButtons b }
  | .wheel y => { s with mouse := s.mouse.mouseWheel y }
  | .send => { s with mouse := s.mouse.sendMouseState }
  | .key code => { s with mouse := { s.mouse with toSmc := s.mouse.keyAdd code } }
  | .data v => { s with mouse := { s.mouse with toSmc := s.mouse.toSmc.data v } }
  | .read =>
    { s with
      mouse := { s.mouse with toSmc := s.mouse.toSmc.read.2 }
      heard :=
        if HearsMouse s.mouse.toSmc then
          s.heard ++ [⟨s.mouse.mousePacketSize, s.mouse.mseQueued, s.mouse.toSmc.read.1⟩]
        else s.heard }
  | .write => { s with mouse := { s.mouse with toSmc := s.mouse.toSmc.write } }

/-- No mouse ID is set inside a packet. -/
def Between (s : Session) (e : Event) : Prop :=
  e = .write → s.mouse.buffer 0 = 0x20 → s.mouse.mseCount = 0

/-- The queue does not overflow, and no mouse ID is set while it holds anything. -/
def Lossless (s : Session) (e : Event) : Prop :=
  match e with
  | .write => s.mouse.buffer 0 = 0x20 → s.mouse.mseCount = 0 ∧ s.mouse.mseQueued = 0
  | .send => Fits (s.mouse.mouseDx.natAbs + 1) s.mouse
  | _ => True

instance Fits.decidable : (rounds : ℕ) → (m : Mouse) → Decidable (Fits rounds m)
  | 0, _ => .isTrue trivial
  | rounds + 1, m =>
    have := Fits.decidable rounds m.sendOne
    inferInstanceAs (Decidable (_ ∧ (_ → _)))

instance (s : Session) (e : Event) : Decidable (Between s e) :=
  inferInstanceAs (Decidable (_ → _ → _))

instance (s : Session) : (e : Event) → Decidable (Lossless s e)
  | .write => inferInstanceAs (Decidable (_ → _ ∧ _))
  | .send => inferInstanceAs (Decidable (Fits _ _))
  | .move _ _ | .buttons _ | .wheel _ | .key _ | .data _ | .read => .isTrue trivial

theorem Lossless.between {s : Session} {e : Event} (lossless : Lossless s e) : Between s e := by
  rintro rfl id
  exact (lossless id).1

/-- The book of a session. -/
structure Good (s : Session) (b : Book) : Prop where
  keeps : Keeps s.mouse.toSmc s.heard b
  three : s.mouse.mouseButtons.toNat < 8

/-- The movement heard, queued and pending is the movement reported. -/
def Balanced (s : Session) (b : Book) : Prop := b.moved + pending s.mouse = s.moved

/-- A read but for what it makes ready for the next transaction. -/
def answer (s : Smc) : Byte × Smc :=
  match (s.buffer 0).toNat with
  | 0x43 => if s.defaultReadState = 0 then { s with defaultReadState := 1 }.kbdNext else s.readMouse
  | 0x42 | 0x21 => s.readMouse
  | 0x41 => { s with defaultReadState := 0 }.kbdNext
  | 0x07 => s.kbdNext
  | 0x09 => (0, s)
  | 0x22 => (s.mouseId, s)
  | 0x30 => (SMC_VERSION_MAJOR, s)
  | 0x31 => (SMC_VERSION_MINOR, s)
  | 0x32 => (SMC_VERSION_PATCH, s)
  | _ => (0xFF, s)

theorem answer_mouse {s : Smc} (hears : HearsMouse s) : answer s = s.readMouse := by
  unfold answer
  obtain mouse | mouse | ⟨combined, state⟩ := hears
  · rw [mouse]
    rfl
  · rw [mouse]
    rfl
  · rw [combined]
    exact if_neg state

theorem kbdNext_still (s : Smc) : Still s s.kbdNext.2 := by
  unfold Smc.kbdNext
  split <;> exact ⟨rfl, rfl, rfl, rfl, rfl⟩

theorem answer_still {s : Smc} (other : ¬HearsMouse s) : Still s (answer s).2 := by
  unfold HearsMouse at other
  unfold answer
  split
  next combined =>
    have state : s.defaultReadState = 0 := by
      by_contra state
      exact other (.inr (.inr ⟨BitVec.eq_of_toNat_eq combined, state⟩))
    rw [if_pos state]
    have next := kbdNext_still { s with defaultReadState := 1 }
    exact ⟨next.mse, next.head, next.tail, next.count, next.id⟩
  next mouse => exact absurd (.inl (BitVec.eq_of_toNat_eq mouse)) other
  next mouse => exact absurd (.inr (.inl (BitVec.eq_of_toNat_eq mouse))) other
  next =>
    have next := kbdNext_still { s with defaultReadState := 0 }
    exact ⟨next.mse, next.head, next.tail, next.count, next.id⟩
  next => exact kbdNext_still s
  all_goals exact ⟨rfl, rfl, rfl, rfl, rfl⟩

theorem write_still {s : Smc} (other : s.buffer 0 ≠ 0x20) : Still s s.write := by
  unfold Smc.write
  dsimp only
  split
  case h_5 id => exact absurd (BitVec.eq_of_toNat_eq id) other
  all_goals (repeat' split) <;> exact ⟨rfl, rfl, rfl, rfl, rfl⟩

theorem keyAdd_still (s : Smc) (code : Byte) : Still s (s.keyAdd code) := by
  unfold Smc.keyAdd
  dsimp only
  split <;> exact ⟨rfl, rfl, rfl, rfl, rfl⟩

theorem data_still (s : Smc) (v : Byte) : Still s (s.data v) := by
  unfold Smc.data
  split <;> exact ⟨rfl, rfl, rfl, rfl, rfl⟩

/-- Between packets the queue is cleared; if it was empty no movement goes with it. -/
theorem setMouseId_keeps {s : Smc} {heard : List Heard} {b : Book} (keeps : Keeps s heard b)
    (id : s.buffer 0 = 0x20) (outside : s.mseCount = 0) :
    ∃ b', Keeps s.write heard b' ∧ (s.mseQueued = 0 → b'.moved = b.moved) := by
  have run : s.write = { s.setMouseId (s.buffer 1) with
      buffer := Function.update s.buffer 0 s.defaultReadOp, pos := 0 } := by
    unfold Smc.write
    rw [id]
    rfl
  have head : s.write.mseHead = 0 := by rw [run]; rfl
  have tail : s.write.mseTail = 0 := by rw [run]; rfl
  have count : s.write.mseCount = s.mseCount := by rw [run]; rfl
  have queued : s.write.mseQueued = 0 := by simp [Smc.mseQueued, head, tail, MSE_SIZE]
  have cleared : bytes s.write = [] :=
    List.length_eq_zero_iff.mp ((length_bytes s.write).trans queued)
  obtain ⟨noPart, noRest⟩ := part_of_count keeps outside
  refine ⟨{ b with queue := [] }, ⟨⟨?_, ?_⟩, keeps.heard, keeps.chunks, ?_, by simp,
    count.trans keeps.count, .inl ⟨noPart, noRest⟩⟩, ?_⟩
  · rw [head]
    decide
  · rw [tail]
    decide
  · rw [cleared, noRest]
    rfl
  · intro empty
    have length := length_bytes s
    rw [keeps.bytes, noRest, empty, List.nil_append, List.length_eq_zero_iff, List.flatten_eq_nil_iff] at length
    have nothing : b.queue = [] := by
      rw [List.eq_nil_iff_forall_not_mem]
      intro q mem
      exact (keeps.queue q mem).ne_nil (length q mem)
    rw [Book.moved, Book.moved, nothing]

theorem step_good {s : Session} {b : Book} {e : Event} (good : Good s b) (between : Between s e) :
    ∃ b', Good (s.step e) b' ∧ (Lossless s e → Balanced s b → Balanced (s.step e) b') := by
  obtain ⟨keeps, three⟩ := good
  cases e with
  | move dx dy =>
    refine ⟨b, ⟨keeps.still ⟨rfl, rfl, rfl, rfl, rfl⟩, three⟩, fun _ balanced => ?_⟩
    change b.moved + (s.mouse.mouseDx + dx, s.mouse.mouseDy - dy) = s.moved + (dx, -dy)
    rw [← balanced, pending, add_assoc]
    rfl
  | buttons pressed =>
    have small : ∀ v : Byte, (v &&& 7).toNat < 8 := by decide
    exact ⟨b, ⟨keeps.still ⟨rfl, rfl, rfl, rfl, rfl⟩, small pressed⟩, fun _ balanced => balanced⟩
  | wheel y =>
    have same : (s.mouse.mouseWheel y).toSmc = s.mouse.toSmc ∧
        (s.mouse.mouseWheel y).mouseButtons = s.mouse.mouseButtons ∧
        pending (s.mouse.mouseWheel y) = pending s.mouse := by
      unfold Mouse.mouseWheel
      split <;> exact ⟨rfl, rfl, rfl⟩
    obtain ⟨smc, buttons, still⟩ := same
    refine ⟨b, ⟨?_, ?_⟩, fun _ balanced => ?_⟩
    · change Keeps (s.mouse.mouseWheel y).toSmc s.heard b
      rw [smc]
      exact keeps
    · exact lt_of_eq_of_lt (congrArg BitVec.toNat buttons) three
    · change b.moved + pending (s.mouse.mouseWheel y) = s.moved
      rw [still]
      exact balanced
  | send =>
    obtain ⟨b', keeps', buttons, moved⟩ := sendRounds_keeps (s.mouse.mouseDx.natAbs + 1) keeps three
    refine ⟨b', ⟨keeps', ?_⟩, fun fits balanced => (moved fits).trans balanced⟩
    exact lt_of_eq_of_lt (congrArg BitVec.toNat buttons) three
  | key code => exact ⟨b, ⟨keeps.still (keyAdd_still _ code), three⟩, fun _ balanced => balanced⟩
  | data v => exact ⟨b, ⟨keeps.still (data_still _ v), three⟩, fun _ balanced => balanced⟩
  | read =>
    have later : Still (answer s.mouse.toSmc).2 s.mouse.toSmc.read.2 := ⟨rfl, rfl, rfl, rfl, rfl⟩
    by_cases hears : HearsMouse s.mouse.toSmc
    · obtain ⟨b', keeps', moved⟩ := readMouse_keeps keeps
      have mouse := answer_mouse hears
      rw [← mouse] at keeps'
      refine ⟨b', ⟨?_, three⟩, fun _ balanced => ?_⟩
      · change Keeps s.mouse.toSmc.read.2 (if HearsMouse s.mouse.toSmc then _ else _) b'
        rw [if_pos hears]
        exact keeps'.still later
      · change b'.moved + pending s.mouse = s.moved
        rw [moved]
        exact balanced
    · refine ⟨b, ⟨?_, three⟩, fun _ balanced => balanced⟩
      change Keeps s.mouse.toSmc.read.2 (if HearsMouse s.mouse.toSmc then _ else _) b
      rw [if_neg hears]
      exact (keeps.still (answer_still hears)).still later
  | write =>
    by_cases id : s.mouse.buffer 0 = 0x20
    · obtain ⟨b', keeps', moved⟩ := setMouseId_keeps keeps id (between rfl id)
      refine ⟨b', ⟨keeps', three⟩, fun lossless balanced => ?_⟩
      change b'.moved + pending s.mouse = s.moved
      rw [moved (lossless id).2]
      exact balanced
    · exact ⟨b, ⟨keeps.still (write_still id), three⟩, fun _ balanced => balanced⟩

/-! ## Runs -/

/-- Whole packets and single zeros, and a packet that has begun. -/
def Framed (heard : List Heard) : Prop :=
  ∃ chunks part, heard = List.flatten chunks ++ part ∧ (∀ c ∈ chunks, Idle c ∨ Packet c) ∧
    (part = [] ∨ ∃ size rest, Begun size part rest)

theorem framed_of_keeps {s : Smc} {heard : List Heard} {b : Book} (keeps : Keeps s heard b) :
    Framed heard := by
  refine ⟨b.chunks, b.part, keeps.heard, keeps.chunks, ?_⟩
  rcases keeps.part with ⟨none_, -⟩ | begun
  · exact .inl none_
  · exact .inr ⟨_, _, begun⟩

theorem good_start : Good .start ⟨[], [], [], []⟩ where
  keeps := ⟨⟨by decide, by decide⟩, rfl, by simp, rfl, by simp, rfl, .inl ⟨rfl, rfl⟩⟩
  three := by decide

theorem packets_framed (es : List Event) :
    (Guarded Session.step Between .start es → Framed (es.foldl Session.step .start).heard) ∧
      (Guarded Session.step Lossless .start es →
        ∃ b, Keeps (es.foldl Session.step .start).mouse.toSmc (es.foldl Session.step .start).heard b ∧
          b.moved + pending (es.foldl Session.step .start).mouse =
            (es.foldl Session.step .start).moved) := by
  constructor
  · intro run
    obtain ⟨b, good⟩ := foldl_invariant Session.step Between (fun s => ∃ b, Good s b)
      (fun s e ⟨b, good⟩ between => by
        obtain ⟨b', good', -⟩ := step_good good between
        exact ⟨b', good'⟩) _ es ⟨_, good_start⟩ run
    exact framed_of_keeps good.keeps
  · intro run
    obtain ⟨b, good, balanced⟩ := foldl_invariant Session.step Lossless
      (fun s => ∃ b, Good s b ∧ Balanced s b)
      (fun s e ⟨b, good, balanced⟩ lossless => by
        obtain ⟨b', good', kept⟩ := step_good good lossless.between
        exact ⟨b', good', kept lossless balanced⟩) _ es ⟨_, good_start, rfl⟩ run
    exact ⟨b, good.keeps, balanced⟩

def hear (n : ℕ) : List Event := (List.replicate n [Event.data 0x21, .read]).flatten

def setId (id : Byte) : List Event := [.data 0x20, .data id, .write]

/-- A movement of two packets, of which one is heard, and another mouse ID. -/
def moving : List Event :=
  [.move 300 (-290), .buttons 1, .send] ++ hear 8 ++ setId 0 ++ [.move (-3) 0, .send] ++ hear 2

set_option maxRecDepth 100000 in
theorem packets_framed_moving : Framed (moving.foldl Session.step .start).heard ∧
    ∃ b, Keeps (moving.foldl Session.step .start).mouse.toSmc (moving.foldl Session.step .start).heard b ∧
      b.moved + pending (moving.foldl Session.step .start).mouse =
        (moving.foldl Session.step .start).moved :=
  ⟨(packets_framed moving).1 (by decide), (packets_framed moving).2 (by decide)⟩

def flushed : Session := ([Event.move 5 0, .send] ++ setId 0).foldl Session.step .start

def misread : Session :=
  ([Event.send] ++ hear 1 ++ setId 3 ++ [Event.send] ++ hear 3 ++ [Event.send] ++ hear 1).foldl Session.step .start

/-- Setting the mouse ID drops a movement that is queued. In the middle of a packet it leaves the
place in the packet, and the next packet is not read from its start: here a zero is heard where
five bytes are queued. -/
theorem packets_not_framed :
    (flushed.heard = [] ∧ bytes flushed.mouse.toSmc = [] ∧ pending flushed.mouse = 0 ∧
      flushed.moved = (5, 0)) ∧
    misread.heard.map Heard.byte = [8, 8, 0, 0, 0] ∧ misread.heard.getLast? = some ⟨4, 5, 0⟩ := by
  decide

end Mmemu.Guarantees.MousePackets
