import Mmemu.Library.Schedules
import Mmemu.Source.VirtualIec

/-!
# The virtual drive answers ATN

While ATN is held, ticks bring the drive to its attention or addressing state with
DATA pulled, from every state but two: its error state, which looks for ATN no
more, and the middle of a byte under an ATN whose release no tick has seen.
-/
namespace Mmemu.Guarantees.AttentionAnswers
open Mmemu.Library.Schedules Mmemu.Source.CbmDos Mmemu.Source.VirtualIec

/-! ## Runs -/

inductive Event where
  | writePort (val : Byte)
  | tick (cycles : BitVec 64)
  | reset
  | mountDisk (unit : ℤ) (path : Bytes)
  | ejectDisk (unit : ℤ)
  deriving DecidableEq, Repr

/-- Present on the bus: DATA is pulled for ATN. -/
def Answering (d : VirtualIecBus) : Prop :=
  (d.state = .attention ∨ d.state = .addressing) ∧ d.dataOut = true

/-- Some cycles, and fewer than half of what the timer can count. -/
def Short (cycles : BitVec 64) : Prop := 0 < cycles.toNat ∧ cycles.toNat < 2 ^ 63

/-- Where ATN, already held, is not answered. The bytes under ATN that still get an
answer are one whose end was announced and one at its last bit. -/
def Deaf (d : VirtualIecBus) : Prop :=
  d.state = .error ∨
    d.state = .addressing ∧ d.dataOut = false ∧ ¬ (d.talkSubPhase = 1 ∧ d.clkIn = false) ∧
      ¬ (d.talkSubPhase = 2 ∧ d.bitCount = 7 ∧ d.lastClkIn = true ∧ d.clkIn = false)

section Runs

variable (disks : Bytes → Option DiskImage)

def step (d : VirtualIecBus) : Event → VirtualIecBus
  | .writePort val => d.writePort val
  | .tick cycles => d.tick disks cycles
  | .reset => d.reset
  | .mountDisk unit path => d.mountDisk unit path
  | .ejectDisk unit => d.ejectDisk unit

def run (d : VirtualIecBus) (events : List Event) : VirtualIecBus := events.foldl (step disks) d

/-- Whatever the ticks are, the drive comes to answer. -/
def Answers (d : VirtualIecBus) : Prop := LeadsTo (VirtualIecBus.tick disks) Short d Answering

end Runs

/-! ## What holds in every state -/

/-- The states that a command can lead to. -/
def Rests (st : State) : Prop := st = .idle ∨ st = .listening ∨ st = .turnaround

structure Sound (d : VirtualIecBus) : Prop where
  next : Rests d.nextState
  held : d.state = .acknowledge → d.dataOut = true
  acked : d.state = .acknowledge → d.stateTimer.toNat ≤ 80
  bits : d.state = .addressing → d.bitCount < 8
  start : d.state = .addressing → d.talkSubPhase = 0 → d.dataOut = true
  wait : d.state = .addressing → d.talkSubPhase = 1 → d.stateTimer.toNat ≤ 250

theorem Sound.elsewhere {d : VirtualIecBus} (next : Rests d.nextState) (ack : d.state ≠ .acknowledge)
    (addressing : d.state ≠ .addressing) : Sound d where
  next := next
  held h := absurd h ack
  acked h := absurd h ack
  bits h := absurd h addressing
  start h := absurd h addressing
  wait h := absurd h addressing

theorem Sound.attend {d : VirtualIecBus} (next : Rests d.nextState) : Sound d.attend :=
  .elsewhere next nofun nofun

theorem Sound.letGo {d : VirtualIecBus} (next : Rests d.nextState) :
    Sound { d.attend with clkOut := false } := .elsewhere next nofun nofun

/-- Nothing changes that a state apart from the acknowledgement and from a byte under ATN is held to. -/
theorem Sound.still {d e : VirtualIecBus} {st : State} (next : Rests d.nextState) (at_ : d.state = st)
    (ack : st ≠ .acknowledge) (addressing : st ≠ .addressing) (sameNext : e.nextState = d.nextState)
    (same : e.state = d.state) : Sound e := by
  have here := same.trans at_
  exact .elsewhere (sameNext ▸ next) (ne_of_eq_of_ne here ack) (ne_of_eq_of_ne here addressing)

theorem Sound.rests {d : VirtualIecBus} (next : Rests d.nextState) (here : Rests d.state) : Sound d := by
  refine Sound.elsewhere next ?_ ?_
  · rintro h
    rw [h] at here
    rcases here with h | h | h <;> cases h
  · rintro h
    rw [h] at here
    rcases here with h | h | h <;> cases h

section Invariant

variable {disks : Bytes → Option DiskImage}

theorem rests_processCommand {d : VirtualIecBus} (h : Rests d.nextState) (cmd : Byte) :
    Rests (d.processCommand disks cmd).nextState := by
  unfold VirtualIecBus.processCommand
  dsimp only
  repeat' split
  all_goals first | exact h | exact .inl rfl | exact .inr (.inl rfl) | exact .inr (.inr rfl)

theorem nextState_handleByteReceived (d : VirtualIecBus) (byte : Byte) :
    (d.handleByteReceived byte).nextState = d.nextState := by
  unfold VirtualIecBus.handleByteReceived
  split <;> rfl

/-- A byte still being received, in a given phase. -/
theorem Sound.receiving {d : VirtualIecBus} (phase : ℕ) (at_ : d.talkSubPhase = phase)
    (next : Rests d.nextState) (here : d.state ≠ .acknowledge)
    (bits : d.state = .addressing → d.bitCount < 8)
    (start : phase = 0 → d.state = .addressing → d.dataOut = true)
    (wait : phase = 1 → d.stateTimer.toNat ≤ 250) : Sound d where
  next := next
  held h := absurd h here
  acked h := absurd h here
  bits := bits
  start h zero := start (at_.symm.trans zero) h
  wait _ one := wait (at_.symm.trans one)

theorem handleBitTransfer_spec (d : VirtualIecBus) :
    (d.handleBitTransfer).nextState = d.nextState ∧ (d.handleBitTransfer).state = d.state ∧
      (d.handleBitTransfer).talkSubPhase = d.talkSubPhase ∧
      (d.handleBitTransfer).bitCount ≤ d.bitCount + 1 := by
  unfold VirtualIecBus.handleBitTransfer
  dsimp only
  split
  · exact ⟨rfl, rfl, rfl, Nat.le_refl _⟩
  · exact ⟨rfl, rfl, rfl, Nat.le_succ _⟩

theorem Sound.receive {whole : VirtualIecBus → Byte → VirtualIecBus} {d : VirtualIecBus}
    (next : Rests d.nextState)
    (kept : ∀ d b, Rests d.nextState → Rests (whole d b).nextState)
    (here : d.state ≠ .acknowledge) (bits : d.state = .addressing → d.bitCount < 8)
    (start : d.state = .addressing → d.talkSubPhase = 0 → d.dataOut = true) :
    Sound (VirtualIecBus.receive whole d) := by
  unfold VirtualIecBus.receive
  split
  · rename_i phase
    split
    · exact .receiving 1 rfl next here bits (fun h => absurd h (by decide)) fun _ => Nat.zero_le _
    · exact .receiving 0 phase next here bits (fun _ h => start h phase) fun h => absurd h (by decide)
  · rename_i phase
    split
    · exact .receiving 2 rfl next here bits (fun h => absurd h (by decide)) fun h => absurd h (by decide)
    · split
      · exact .receiving 3 rfl next here bits (fun h => absurd h (by decide)) fun h =>
          absurd h (by decide)
      · rename_i early
        exact .receiving 1 phase next here bits (fun h => absurd h (by decide)) fun _ =>
          Nat.le_of_not_lt early
  · rename_i phase
    obtain ⟨sameNext, sameState, samePhase, count⟩ := handleBitTransfer_spec d
    dsimp only
    split
    · -- the byte is acknowledged
      refine ⟨kept _ _ (sameNext ▸ next), fun _ => rfl, fun _ => Nat.zero_le _, ?_, ?_, ?_⟩
      all_goals exact fun h => absurd h (by simp)
    · rename_i short
      refine .receiving 2 (samePhase.trans phase) (sameNext ▸ next) (sameState ▸ here) ?_
        (fun h => absurd h (by decide)) fun h => absurd h (by decide)
      intro h
      have room := bits (sameState ▸ h)
      omega
  · rename_i phase
    split
    · exact .receiving 4 rfl next here bits (fun h => absurd h (by decide)) fun h => absurd h (by decide)
    · exact .receiving 3 phase next here bits (fun h => absurd h (by decide)) fun h =>
        absurd h (by decide)
  · rename_i phase
    split
    · exact .receiving 2 rfl next here bits (fun h => absurd h (by decide)) fun h => absurd h (by decide)
    · exact .receiving 4 phase next here bits (fun h => absurd h (by decide)) fun h =>
        absurd h (by decide)
  · rename_i zero one _ _ _
    exact .receiving _ rfl next here bits (fun h => absurd h zero) fun h => absurd h one

theorem Sound.react {d : VirtualIecBus} (next : Rests d.nextState)
    (held : d.state = .acknowledge → d.dataOut = true)
    (bits : d.state = .addressing → d.bitCount < 8)
    (start : d.state = .addressing → d.talkSubPhase = 0 → d.dataOut = true) :
    Sound (d.react disks) := by
  unfold VirtualIecBus.react
  cases at_ : d.state with
  | idle =>
    dsimp only
    split
    · exact .attend next
    · exact .still next at_ nofun nofun rfl rfl
  | attention =>
    simp only [VirtualIecBus.tickAttention]
    split
    · exact .receiving 0 rfl next (by simp) (fun _ => Nat.zero_lt_succ 7) (fun _ _ => rfl) fun _ =>
        Nat.zero_le _
    · exact .still next at_ nofun nofun rfl rfl
  | addressing =>
    simp only [VirtualIecBus.tickAddressing]
    split
    · exact .rests next next
    · exact .receive next (fun d b h => rests_processCommand h b) (by simp [at_]) bits start
  | acknowledge =>
    simp only [VirtualIecBus.tickAcknowledge]
    split
    · rename_i early
      exact ⟨next, held, fun _ => early, fun h => absurd (at_.symm.trans h) (by simp),
        fun h => absurd (at_.symm.trans h) (by simp), fun h => absurd (at_.symm.trans h) (by simp)⟩
    · split
      · exact .receiving 0 rfl next (by simp) (fun _ => Nat.zero_lt_succ 7) (fun _ _ => held at_)
          fun _ => Nat.zero_le _
      · exact .rests next next
  | listening =>
    dsimp only
    split
    · exact .attend next
    · exact .receive next (fun d b h => by rwa [nextState_handleByteReceived]) (by simp [at_]) bits start
  | turnaround =>
    dsimp only
    split
    · exact .letGo next
    · unfold VirtualIecBus.tickTurnaround
      split
      · exact .elsewhere next nofun nofun
      · exact .still next at_ nofun nofun rfl rfl
  | talkReady =>
    dsimp only
    split
    · exact .letGo next
    · unfold VirtualIecBus.tickTalkReady VirtualIecBus.getNextByte VirtualIecBus.startTalking
      dsimp only
      repeat' split
      all_goals first
        | exact .still next at_ nofun nofun rfl rfl
        | exact .elsewhere next nofun nofun
  | talking =>
    dsimp only
    split
    · exact .letGo next
    · unfold VirtualIecBus.tickTalking
      dsimp only
      repeat' split
      all_goals first
        | exact .still next at_ nofun nofun rfl rfl
        | exact .elsewhere next nofun nofun
  | talkFrame =>
    dsimp only
    split
    · exact .letGo next
    · unfold VirtualIecBus.tickTalkFrame
      dsimp only
      repeat' split
      all_goals first
        | exact .still next at_ nofun nofun rfl rfl
        | exact .elsewhere next nofun nofun
  | error => exact .still next at_ nofun nofun rfl rfl

theorem Sound.led {d : VirtualIecBus} (h : Sound d) (led : Bool) : Sound { d with led := led } :=
  ⟨h.next, h.held, h.acked, h.bits, h.start, h.wait⟩

theorem Sound.tick {d : VirtualIecBus} (h : Sound d) (cycles : BitVec 64) : Sound (d.tick disks cycles) :=
  Sound.led (Sound.react (d := { d with stateTimer := d.stateTimer + cycles })
    h.next h.held h.bits h.start) _

theorem Sound.writePort {d : VirtualIecBus} (h : Sound d) (val : Byte) : Sound (d.writePort val) :=
  ⟨h.next, h.held, h.acked, h.bits, h.start, h.wait⟩

theorem Sound.step {d : VirtualIecBus} (h : Sound d) (event : Event) : Sound (step disks d event) := by
  cases event with
  | writePort val => exact h.writePort val
  | tick cycles => exact h.tick cycles
  | reset => exact .rests (.inl rfl) (.inl rfl)
  | mountDisk unit path =>
    simp only [AttentionAnswers.step, VirtualIecBus.mountDisk]
    split
    · exact ⟨h.next, h.held, h.acked, h.bits, h.start, h.wait⟩
    · exact h
  | ejectDisk unit =>
    simp only [AttentionAnswers.step, VirtualIecBus.ejectDisk]
    split
    · exact ⟨h.next, h.held, h.acked, h.bits, h.start, h.wait⟩
    · exact h

theorem Sound.run {d : VirtualIecBus} (h : Sound d) (events : List Event) :
    Sound (run disks d events) := by
  induction events generalizing d with
  | nil => exact h
  | cons event rest ih => exact ih (h.step event)

theorem sound_constructed (deviceNumber : Byte) : Sound (constructed deviceNumber) :=
  .rests (.inl rfl) (.inl rfl)

/-! ## States that answer -/

/-- A timer at rest below a limit goes on by the cycles of a tick. -/
theorem toNat_timer {timer cycles : BitVec 64} (rest : timer.toNat ≤ 250) (short : Short cycles) :
    (timer + cycles).toNat = timer.toNat + cycles.toNat := by
  rw [BitVec.toNat_add]
  have limit := short.2
  omega

/-- An acknowledged byte is followed by the next. -/
theorem answers_acknowledge {d : VirtualIecBus} (here : d.state = .acknowledge) (atn : d.atnIn = true)
    (held : d.dataOut = true) (acked : d.stateTimer.toNat ≤ 80) : Answers disks d := by
  refine LeadsTo.of_variant (fun d => d.state = .acknowledge ∧ d.atnIn = true ∧
    d.dataOut = true ∧ d.stateTimer.toNat ≤ 80) (fun d => 80 - d.stateTimer.toNat) ?_
    ⟨here, atn, held, acked⟩
  rintro d cycles ⟨here, atn, held, acked⟩ short
  have timer := toNat_timer (acked.trans (by decide)) short
  have some_ := short.1
  by_cases early : d.stateTimer + cycles ≤ 80
  · have bound : (d.stateTimer + cycles).toNat ≤ 80 := early
    simp only [VirtualIecBus.tick, VirtualIecBus.react, here, VirtualIecBus.tickAcknowledge,
      if_pos early]
    exact .inr ⟨⟨trivial, atn, held, bound⟩, by omega⟩
  · refine .inl (LeadsTo.now ?_)
    simp only [Answering, VirtualIecBus.tick, VirtualIecBus.react, here,
      VirtualIecBus.tickAcknowledge, if_neg early, if_pos atn]
    exact ⟨.inr trivial, held⟩

/-- CLK let go for long announces the last byte, which is acknowledged. -/
theorem answers_announced {d : VirtualIecBus} (here : d.state = .addressing) (atn : d.atnIn = true)
    (phase : d.talkSubPhase = 1) (clk : d.clkIn = false) (wait : d.stateTimer.toNat ≤ 250) :
    Answers disks d := by
  refine LeadsTo.of_variant (fun d => d.state = .addressing ∧ d.atnIn = true ∧
    d.talkSubPhase = 1 ∧ d.clkIn = false ∧ d.stateTimer.toNat ≤ 250)
    (fun d => 250 - d.stateTimer.toNat) ?_ ⟨here, atn, phase, clk, wait⟩
  rintro d cycles ⟨here, atn, phase, clk, wait⟩ short
  have timer := toNat_timer wait short
  have some_ := short.1
  by_cases late : 250 < d.stateTimer + cycles
  · refine .inl (LeadsTo.now ?_)
    simp only [Answering, VirtualIecBus.tick, VirtualIecBus.react, here, VirtualIecBus.tickAddressing,
      atn, Bool.not_true, Bool.false_eq_true, if_false, VirtualIecBus.receive, phase, clk, if_pos late]
    exact ⟨.inr trivial, trivial⟩
  · have bound : (d.stateTimer + cycles).toNat ≤ 250 := Nat.le_of_not_lt late
    simp only [VirtualIecBus.tick, VirtualIecBus.react, here, VirtualIecBus.tickAddressing, atn,
      Bool.not_true, Bool.false_eq_true, if_false, VirtualIecBus.receive, phase, clk, if_neg late]
    exact .inr ⟨⟨trivial, trivial, trivial, trivial, bound⟩, by omega⟩

theorem atnIn_processCommand (d : VirtualIecBus) (cmd : Byte) :
    (d.processCommand disks cmd).atnIn = d.atnIn := by
  unfold VirtualIecBus.processCommand
  dsimp only
  repeat' split
  all_goals rfl

/-- At the last bit of a command the next tick acknowledges it. -/
theorem answers_last_bit {d : VirtualIecBus} (here : d.state = .addressing) (atn : d.atnIn = true)
    (phase : d.talkSubPhase = 2) (bits : d.bitCount = 7) (last : d.lastClkIn = true)
    (clk : d.clkIn = false) : Answers disks d := by
  refine LeadsTo.next fun cycles _ => answers_acknowledge ?_ ?_ ?_ ?_
  all_goals simp [VirtualIecBus.tick, VirtualIecBus.react, VirtualIecBus.tickAddressing,
    VirtualIecBus.receive, VirtualIecBus.handleBitTransfer, here, atn, phase, bits, last, clk,
    atnIn_processCommand]

/-- The states that look for ATN answer at the next tick. -/
theorem answers_elsewhere {d : VirtualIecBus} (atn : d.atnIn = true) (error : d.state ≠ .error)
    (addressing : d.state ≠ .addressing) (ack : d.state ≠ .acknowledge) : Answers disks d := by
  refine LeadsTo.next fun cycles _ => LeadsTo.now ?_
  cases here : d.state with
  | error => exact absurd here error
  | addressing => exact absurd here addressing
  | acknowledge => exact absurd here ack
  | attention =>
    simp only [Answering, VirtualIecBus.tick, VirtualIecBus.react, VirtualIecBus.tickAttention, here]
    split
    · exact ⟨.inr rfl, rfl⟩
    · exact ⟨.inl rfl, rfl⟩
  | _ => simp [Answering, VirtualIecBus.tick, VirtualIecBus.react, VirtualIecBus.attend, here, atn]

theorem answers_of_not_deaf {d : VirtualIecBus} (h : Sound d) (atn : d.atnIn = true) (hears : ¬ Deaf d) :
    Answers disks d := by
  rw [Deaf, not_or] at hears
  by_cases addressing : d.state = .addressing
  · cases held : d.dataOut with
    | true => exact LeadsTo.now ⟨.inr addressing, held⟩
    | false =>
      have either : (d.talkSubPhase = 1 ∧ d.clkIn = false) ∨
          (d.talkSubPhase = 2 ∧ d.bitCount = 7 ∧ d.lastClkIn = true ∧ d.clkIn = false) := by
        by_contra neither
        rw [not_or] at neither
        exact hears.2 ⟨addressing, held, neither⟩
      rcases either with ⟨phase, clk⟩ | ⟨phase, bits, last, clk⟩
      · exact answers_announced addressing atn phase clk (h.wait addressing phase)
      · exact answers_last_bit addressing atn phase bits last clk
  · by_cases ack : d.state = .acknowledge
    · exact answers_acknowledge ack atn (h.held ack) (h.acked ack)
    · exact answers_elsewhere atn hears.1 addressing ack

/-! ## States that do not -/

/-- The middle of a byte under ATN, with nothing more to come of it. -/
structure Stuck (d : VirtualIecBus) : Prop where
  here : d.state = .addressing
  atn : d.atnIn = true
  free : d.dataOut = false
  begun : d.talkSubPhase ≠ 0
  short : d.bitCount ≠ 8
  clk : d.talkSubPhase = 1 → d.clkIn = true
  still : d.talkSubPhase = 2 → ¬ (d.bitCount = 7 ∧ d.lastClkIn = true ∧ d.clkIn = false)

theorem Stuck.receive (whole : VirtualIecBus → Byte → VirtualIecBus) {d : VirtualIecBus}
    (h : Stuck d) : Stuck (VirtualIecBus.receive whole d) := by
  unfold VirtualIecBus.receive
  split
  · rename_i phase
    exact absurd phase h.begun
  · rename_i phase
    rw [if_pos (h.clk phase)]
    exact ⟨h.here, h.atn, h.free, by simp, h.short, by simp, by simp [h.clk phase]⟩
  · -- at most one edge more, and not the eighth
    rename_i phase
    have still := h.still phase
    have short := h.short
    have next : (d.handleBitTransfer).bitCount ≠ 8 := by
      unfold VirtualIecBus.handleBitTransfer
      dsimp only
      split
      · rename_i edge
        simp only [Bool.and_eq_true, Bool.not_eq_true'] at edge
        intro eight
        exact still ⟨Nat.succ.inj eight, edge⟩
      · exact short
    rw [if_neg next]
    refine ⟨?_, ?_, ?_, ?_, next, ?_, ?_⟩
    all_goals
      unfold VirtualIecBus.handleBitTransfer
      dsimp only
    · split <;> exact h.here
    · split <;> exact h.atn
    · split <;> exact h.free
    · split <;> exact h.begun
    · split <;> exact h.clk
    · rintro _ ⟨_, last, clk⟩
      rw [last] at clk
      cases clk
  · rename_i phase
    split
    · exact ⟨h.here, h.atn, rfl, by simp, h.short, by simp, by simp⟩
    · exact h
  · rename_i phase
    split
    · rename_i clk
      exact ⟨h.here, h.atn, h.free, by simp, h.short, by simp, by simp [clk]⟩
    · exact h
  · exact h

theorem Stuck.tick {d : VirtualIecBus} (h : Stuck d) (cycles : BitVec 64) :
    Stuck (d.tick disks cycles) := by
  have later : Stuck { d with stateTimer := d.stateTimer + cycles } :=
    ⟨h.here, h.atn, h.free, h.begun, h.short, h.clk, h.still⟩
  have received := later.receive (VirtualIecBus.processCommand disks)
  simp only [VirtualIecBus.tick, VirtualIecBus.react, h.here, VirtualIecBus.tickAddressing, h.atn,
    Bool.not_true, Bool.false_eq_true, if_false]
  rw [h.here, h.atn] at received
  exact ⟨received.here, received.atn, received.free, received.begun, received.short, received.clk,
    received.still⟩

theorem short_one : Short 1 := by
  constructor <;> decide

theorem not_answers_of_deaf {d : VirtualIecBus} (h : Sound d) (atn : d.atnIn = true) (deaf : Deaf d) :
    ¬ Answers disks d := by
  rcases deaf with error | ⟨addressing, free, announced, last⟩
  · refine not_leadsTo (fun d => d.state = .error) 1 short_one (fun d here => ?_) ?_ error
    · simp only [VirtualIecBus.tick, VirtualIecBus.react, here]
    · rintro d here ⟨attending | attending, _⟩
      · cases here.symm.trans attending
      · cases here.symm.trans attending
  · have begun : d.talkSubPhase ≠ 0 := by
      intro zero
      cases free.symm.trans (h.start addressing zero)
    have stuck : Stuck d := by
      refine ⟨addressing, atn, free, begun, (h.bits addressing).ne, fun phase => ?_, ?_⟩
      · simpa [phase] using announced
      · rintro phase ⟨bits, edge⟩
        exact last ⟨phase, bits, edge⟩
    refine not_leadsTo Stuck 1 short_one (fun d h => h.tick 1) (fun d h answers => ?_) stuck
    cases h.free.symm.trans answers.2

end Invariant

/-! ## ATN is pulled -/

/-- In every run, whatever is mounted: when ATN is pulled and the lines are then
held, the drive comes to answer exactly if it is not deaf. -/
theorem answers_iff (disks : Bytes → Option DiskImage) (deviceNumber : Byte) (events : List Event)
    (val : Byte) (pulled : val.getLsbD 3 = true) :
    Answers disks ((run disks (constructed deviceNumber) events).writePort val) ↔
      ¬ Deaf ((run disks (constructed deviceNumber) events).writePort val) := by
  have sound : Sound ((run disks (constructed deviceNumber) events).writePort val) :=
    ((sound_constructed deviceNumber).run events).writePort val
  constructor
  · exact fun answers deaf => not_answers_of_deaf sound pulled deaf answers
  · exact answers_of_not_deaf sound pulled

/-- After a reset. -/
theorem answers_iff_idle :
    Answers (fun _ => none) ((run (fun _ => none) (constructed 8) [.reset]).writePort 0x18) ↔
      ¬ Deaf ((run (fun _ => none) (constructed 8) [.reset]).writePort 0x18) :=
  answers_iff (fun _ => none) 8 [.reset] 0x18 (by decide)

/-- A bit under ATN: CLK pulled, then let go with DATA pulled for a zero. -/
def bitUnderAtn (bit : Bool) : List Event :=
  [.writePort 0x18, .tick 1, .writePort (if bit then 0x08 else 0x28), .tick 1]

/-- TALK 8, and the byte that is then sent is not taken. -/
def untakenByte : List Event :=
  [.writePort 0x18, .tick 1, .tick 21, .writePort 0x08, .tick 1] ++
    [false, false, false, true, false, false, true, false].flatMap bitUnderAtn ++
    [.writePort 0x00, .tick 81, .tick 1, .writePort 0x20, .tick 100, .writePort 0x00, .tick 1,
      .tick 250, .tick 1, .writePort 0x20, .tick 1, .writePort 0x00, .tick 1] ++
    List.replicate 16 (.tick 61) ++ [.tick 1001]

/-- The drive waits for its byte to be taken, gives up, and hears ATN no more. -/
theorem atn_not_answered :
    ¬ Answers (fun _ => none) ((run (fun _ => none) (constructed 8) untakenByte).writePort 0x08) := by
  have sound : Sound ((run (fun _ => none) (constructed 8) untakenByte).writePort 0x08) :=
    ((sound_constructed 8).run untakenByte).writePort 0x08
  have error : (run (fun _ => none) (constructed 8) untakenByte).state = .error := by decide
  exact not_answers_of_deaf sound (by decide) (.inl error)

end Mmemu.Guarantees.AttentionAnswers
