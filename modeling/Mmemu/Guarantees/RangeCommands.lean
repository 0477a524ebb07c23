import Mmemu.Source.Monitors

/-!
# The VICE monitor: range commands finish

The loops of `mem` and `checksum` compare a 32-bit counter with the last address of the range,
which is inside. They end, after reading each address of the range once, exactly when the
counter takes some value above it.
-/
namespace Mmemu.Guarantees.RangeCommands
open Mmemu.Library.CountedLoop Mmemu.Source.Assembler6502 Mmemu.Source.ViceMonitor

/-- The addresses a command goes through, and how many it takes at a time. -/
structure Range where
  stride : ℕ
  first : BitVec 32
  last : BitVec 32
  deriving DecidableEq

variable {σ : Type} (m : ViceMonitorProtocol σ)

/-- The range of a command line, if it reads one. -/
def rangeOf (cmd : Text) : Option Range := do
  let _ ← m.m_bus
  match ViceMonitorProtocol.dispatch (ViceMonitorProtocol.subcmd cmd) with
  | some .memory =>
    let (first, last) ← ViceMonitorProtocol.memoryRange (ViceMonitorProtocol.arguments cmd)
    return ⟨16, first, last⟩
  | some .checksum =>
    let (first, last) ← ViceMonitorProtocol.checksumRange (ViceMonitorProtocol.arguments cmd)
    return ⟨1, first, last⟩
  | _ => none

/-- The addresses a command line asks for, each once. -/
def asked (cmd : Text) : List (BitVec 32) :=
  match rangeOf m cmd with
  | none => []
  | some range => interval range.first range.last

/-- The command comes to an outcome, having read each address of its range once. -/
def Finishes (s : σ) (cmd : Text) : Prop :=
  ∃ fuel out, m.executeCommand s fuel cmd = some out ∧ out.visited = asked m cmd

/-- The last address lies below the last row that fits into 32 bits. -/
def Fits (cmd : Text) : Prop :=
  ∀ range, rangeOf m cmd = some range → Bounded range.stride range.first range.last

/-! ## Handlers that read no range -/

section Quiet
variable {m} {s : σ} {args : Text}

@[simp] theorem visited_say (text : String) : (say s text).visited = [] := rfl

@[simp] theorem visited_registers : (m.cmd_registers s).visited = [] := by
  unfold ViceMonitorProtocol.cmd_registers
  split <;> rfl

@[simp] theorem visited_setmem : (m.cmd_setmem s args).visited = [] := by
  unfold ViceMonitorProtocol.cmd_setmem
  split
  · rfl
  · dsimp only
    split
    · rfl
    · split
      · rfl
      · split <;> rfl

@[simp] theorem visited_disassemble : (m.cmd_disassemble s args).visited = [] := by
  unfold ViceMonitorProtocol.cmd_disassemble
  split
  · dsimp only
    split
    · rfl
    · split <;> rfl
  · rfl

@[simp] theorem visited_breakpoint : (m.cmd_breakpoint s args).visited = [] := by
  unfold ViceMonitorProtocol.cmd_breakpoint
  split
  · rfl
  · split
    · rfl
    · dsimp only
      split <;> rfl

@[simp] theorem visited_step : (m.cmd_step s args).visited = [] := by
  unfold ViceMonitorProtocol.cmd_step
  split
  · rfl
  · split
    · rfl
    · exact visited_registers

@[simp] theorem visited_backtrace : (m.cmd_backtrace s).visited = [] := by
  unfold ViceMonitorProtocol.cmd_backtrace
  split <;> rfl

end Quiet

/-! ## Range loops -/

/-- What a loop over a range reads, once it ends. -/
def reads (fuel : ℕ) (range : Range) : Option (List (BitVec 32)) :=
  (upTo range.stride range.last fuel range.first).map
    (·.flatMap (stretch range.stride range.last))

section Loops
variable {m} {bus : IBus σ} (has : m.m_bus = some bus) (s : σ) (fuel : ℕ) (args : Text)
include has

theorem visited_memory :
    (m.cmd_memory s fuel args).map Outcome.visited =
      match ViceMonitorProtocol.memoryRange args with
      | none => some []
      | some (first, last) => reads fuel ⟨16, first, last⟩ := by
  unfold ViceMonitorProtocol.cmd_memory reads
  rw [has]
  cases ViceMonitorProtocol.memoryRange args with
  | none => rfl
  | some range =>
    dsimp only
    cases upTo 16 range.2 fuel range.1 <;> rfl

theorem visited_checksum :
    (m.cmd_checksum s fuel args).map Outcome.visited =
      match ViceMonitorProtocol.checksumRange args with
      | none => some []
      | some (first, last) => reads fuel ⟨1, first, last⟩ := by
  unfold ViceMonitorProtocol.cmd_checksum reads
  rw [has]
  cases ViceMonitorProtocol.checksumRange args with
  | none => rfl
  | some range =>
    dsimp only
    cases ended : upTo 1 range.2 fuel range.1 with
    | none => rfl
    | some out =>
      rw [Option.map_some, flatMap_stretch_one ended]
      rfl

end Loops

/-- A command reads what the loop over its range runs through, and nothing without a range. -/
theorem executeCommand_visited (s : σ) (fuel : ℕ) (cmd : Text) :
    (m.executeCommand s fuel cmd).map Outcome.visited =
      match rangeOf m cmd with
      | none => some []
      | some range => reads fuel range := by
  unfold ViceMonitorProtocol.executeCommand
  split
  next empty =>
    subst empty
    have none_ : rangeOf m [] = none := by
      unfold rangeOf
      cases m.m_bus <;> rfl
    rw [none_]
    rfl
  next =>
    unfold rangeOf
    cases ViceMonitorProtocol.dispatch (ViceMonitorProtocol.subcmd cmd) with
    | none => cases m.m_bus <;> rfl
    | some command =>
      cases bus : m.m_bus with
      | none =>
        cases command <;>
          simp [ViceMonitorProtocol.run, ViceMonitorProtocol.cmd_memory,
            ViceMonitorProtocol.cmd_checksum, bus]
      | some bus' =>
        cases command with
        | memory =>
          refine (visited_memory bus s fuel _).trans ?_
          cases ViceMonitorProtocol.memoryRange (ViceMonitorProtocol.arguments cmd) <;> rfl
        | checksum =>
          refine (visited_checksum bus s fuel _).trans ?_
          cases ViceMonitorProtocol.checksumRange (ViceMonitorProtocol.arguments cmd) <;> rfl
        | _ => simp [ViceMonitorProtocol.run]

/-- The strides of the two loops. -/
theorem stride_of_rangeOf {cmd : Text} {range : Range} (found : rangeOf m cmd = some range) :
    0 < range.stride ∧ range.stride ∣ 2 ^ 32 := by
  unfold rangeOf at found
  cases bus : m.m_bus with
  | none => simp [bus] at found
  | some bus' =>
    simp only [bus, Option.bind_eq_bind, Option.bind_some] at found
    split at found
    · obtain ⟨_, -, same⟩ := Option.bind_eq_some_iff.mp found
      cases same
      exact ⟨Nat.zero_lt_succ 15, Nat.pow_dvd_pow 2 (show 4 ≤ 32 by decide)⟩
    · obtain ⟨_, -, same⟩ := Option.bind_eq_some_iff.mp found
      cases same
      exact ⟨Nat.one_pos, one_dvd _⟩
    · cases found

/-- A command finishes, having read each address of its range once, exactly when its last address
lies below the last row or address that 32 bits count up to. -/
theorem finishes_iff (s : σ) (cmd : Text) : Finishes m s cmd ↔ Fits m cmd := by
  have visited := fun fuel => executeCommand_visited m s fuel cmd
  unfold Finishes Fits asked
  cases found : rangeOf m cmd with
  | none =>
    simp only [found] at visited
    obtain ⟨out, ended, empty⟩ := Option.map_eq_some_iff.mp (visited 0)
    refine iff_of_true ⟨0, out, ended, empty⟩ ?_
    intro range none_
    cases none_
  | some range =>
    simp only [found] at visited
    obtain ⟨positive, whole⟩ := stride_of_rangeOf m found
    constructor
    · rintro ⟨fuel, out, ended, -⟩ range' same
      cases same
      by_contra past
      have stuck := visited fuel
      rw [ended, reads, upTo_of_not_bounded whole past] at stuck
      cases stuck
    · intro fits
      obtain ⟨fuel, out, ended, covers⟩ := upTo_of_bounded whole positive (fits range rfl)
      have read := visited fuel
      rw [reads, ended, Option.map_some, covers] at read
      obtain ⟨outcome, done, same⟩ := Option.map_eq_some_iff.mp read
      exact ⟨fuel, outcome, done, same⟩

/-- A machine with nothing but a bus. -/
def emptyMachine : ViceMonitorProtocol Unit := ⟨none, some ⟨fun _ _ => 0, fun _ _ _ => ()⟩, none⟩

/-- The last sixteen addresses. -/
theorem not_finishes_top : ¬ Finishes emptyMachine () "mem $fffffff0 $ffffffff".toList := by
  have range : rangeOf emptyMachine "mem $fffffff0 $ffffffff".toList =
      some ⟨16, 0xFFFFFFF0, 0xFFFFFFFF⟩ := by decide
  rintro ⟨fuel, out, ended, -⟩
  have stuck := executeCommand_visited emptyMachine () fuel "mem $fffffff0 $ffffffff".toList
  rw [ended, range] at stuck
  simp only [reads] at stuck
  rw [upTo_of_not_bounded (by decide) (by decide)] at stuck
  cases stuck

end Mmemu.Guarantees.RangeCommands
