import Mmemu.Library.Runs
import Mmemu.Library.Numerals
import Mmemu.Guarantees.CartImages

/-!
# The EEPROM as a word store

The serial EEPROM of a GMod2-C128 beside a store of words that is told the commands. The two agree
as long as no enabling of writes is abandoned after its fifth bit, and no other command while the
clock is high.
-/
namespace Mmemu.Guarantees.EepromWords
open Mmemu.Library.CheckedBuffer Mmemu.Library.GuardedRun Mmemu.Library.Numerals Mmemu.Source.C128Carts

abbrev Address := BitVec 10

abbrev Word := BitVec 16

/-! ## Commands -/

theorem binary_digit : ∀ d < 2, (decide (d = 1)).toNat = d := by decide

def binary : Digits Bool 2 := ⟨fun d => decide (d = 1), Bool.toNat, binary_digit⟩

inductive Command where
  | read (a : Address)
  | write (a : Address) (d : Word)
  | erase (a : Address)
  | wral (d : Word)
  | eral
  | ewen
  | ewds

/-- The command that the bits are; `none` if there are too few of them. -/
def complete (bits : List Bool) : Option Command :=
  let n := binary.value bits
  match bits with
  | true :: true :: false :: _ => if bits.length = 13 then some (.read (BitVec.ofNat 10 n)) else none
  | true :: false :: true :: _ =>
    if bits.length = 29 then some (.write (BitVec.ofNat 10 (n / 2 ^ 16)) (BitVec.ofNat 16 n)) else none
  | true :: true :: true :: _ => if bits.length = 13 then some (.erase (BitVec.ofNat 10 n)) else none
  | true :: false :: false :: false :: true :: _ =>
    if bits.length = 29 then some (.wral (BitVec.ofNat 16 n)) else none
  | true :: false :: false :: true :: false :: _ => if bits.length = 13 then some .eral else none
  | true :: false :: false :: true :: true :: _ => if bits.length = 13 then some .ewen else none
  | true :: false :: false :: false :: false :: _ => if bits.length = 13 then some .ewds else none
  | _ => none

/-- The bits of a command; eight bits of some do not count. -/
def Command.bits (rest : Byte) : Command → List Bool
  | .read a => [true, true, false] ++ binary.render 10 a.toNat
  | .write a d => [true, false, true] ++ binary.render 10 a.toNat ++ binary.render 16 d.toNat
  | .erase a => [true, true, true] ++ binary.render 10 a.toNat
  | .wral d => [true, false, false, false, true] ++ binary.render 8 rest.toNat ++ binary.render 16 d.toNat
  | .eral => [true, false, false, true, false] ++ binary.render 8 rest.toNat
  | .ewen => [true, false, false, true, true] ++ binary.render 8 rest.toNat
  | .ewds => [true, false, false, false, false] ++ binary.render 8 rest.toNat

/-! ## The store of words -/

/-- `bits` are those of a command that is not complete; `reading` is the address of a READ and the
clocks since. -/
structure Chip where
  words : Address → Word
  enabled : Bool
  selected : Bool
  clock : Bool
  bits : List Bool
  reading : Option (Address × ℕ)

namespace Chip

def new : Chip := ⟨fun _ => 0xFFFF, false, false, false, [], none⟩

def obey (c : Chip) : Command → Chip
  | .read a => { c with reading := some (a, 0) }
  | .write a d => if c.enabled then { c with words := Function.update c.words a d } else c
  | .erase a => if c.enabled then { c with words := Function.update c.words a 0xFFFF } else c
  | .wral d => if c.enabled then { c with words := fun _ => d } else c
  | .eral => if c.enabled then { c with words := fun _ => 0xFFFF } else c
  | .ewen => { c with enabled := true }
  | .ewds => { c with enabled := false }

/-- A clock with a bit. -/
def clocked (c : Chip) (b : Bool) : Chip :=
  match c.reading with
  | some (a, k) => { c with reading := some (a, k + 1) }
  | none =>
    if c.bits = [] ∧ b = false then c  -- before the start bit
    else
      match complete (c.bits ++ [b]) with
      | some command => { c with bits := [] }.obey command
      | none => { c with bits := c.bits ++ [b] }

def deselected (c : Chip) : Chip := { c with selected := false, bits := [], reading := none }

def write (c : Chip) (w : Byte) : Chip :=
  if w.getLsbD 6 then
    let c := { c with selected := true }
    let c := if w.getLsbD 5 && !c.clock then c.clocked (w.getLsbD 4) else c
    { c with clock := w.getLsbD 5 }
  else c.deselected

/-- The bit that a READ has put out: word by word, the most significant bit first. -/
def output (c : Chip) : Option Bool :=
  match c.reading with
  | some (a, k + 1) => some ((c.words (a + BitVec.ofNat 10 (k / 16))).getLsbD (15 - k % 16))
  | _ => none

end Chip

/-! ## Runs -/

inductive Event where
  | write (w : Byte)
  | read (peek : Bool)
  | reset
  deriving DecidableEq

def Chip.step (c : Chip) : Event → Chip
  | .write w => c.write w
  | .read _ => c
  | .reset => c.deselected

/-- $DE00 is written or read. -/
def cartStep (c : GMod2C128Cart) : Event → Option GMod2C128Cart
  | .write w => (c.io1 (some w) false 0).map fun r => r.2.2
  | .read peek => (c.io1 none peek 0).map fun r => r.2.2
  | .reset => some c.reset

/-- The bits are those of an EWEN, at least five of them. -/
def ewenBegun : List Bool → Bool
  | true :: false :: false :: true :: true :: _ => true
  | _ => false

/-- What may be abandoned: with the clock low, and no EWEN after its fifth bit while writes are
disabled. -/
def Chip.Safe (c : Chip) : Prop := (c.clock = true → c.bits = []) ∧ (ewenBegun c.bits = true → c.enabled = true)

instance (c : Chip) : Decidable c.Safe := inferInstanceAs (Decidable (_ ∧ _))

/-- Whether an event ends a frame. -/
def Event.deselects : Event → Bool
  | .write w => !w.getLsbD 6
  | .read _ => false
  | .reset => true

def Framed (c : Chip) (e : Event) : Prop := e.deselects = true → c.Safe

instance (c : Chip) (e : Event) : Decidable (Framed c e) := inferInstanceAs (Decidable (_ → _))

def wordAt (data : Bytes) (a : Address) : Word := data.item (2 * a.toNat) ++ data.item (2 * a.toNat + 1)

/-! ## The data -/

theorem setWord_words {data : Bytes} (sized : data.size = 2048) (a : Address) (d0 d1 : Byte) : ∃ data',
    M93C86.setWord data (2 * a.toNat) d0 d1 = some data' ∧ data'.size = 2048 ∧
      wordAt data' = Function.update (wordAt data) a (d0 ++ d1) := by
  have low := a.isLt
  have inside : 2 * a.toNat + 1 < data.size := by omega
  unfold M93C86.setWord
  rw [Buffer.set_of_lt (by omega), Option.bind_eq_bind, Option.bind_some, Buffer.set_of_lt (by exact inside)]
  refine ⟨_, rfl, sized, ?_⟩
  funext x
  unfold wordAt
  dsimp only
  by_cases here : x = a
  · rw [here, Function.update_self, Function.update_self, Function.update_of_ne (by omega), Function.update_self]
  · have apart : x.toNat ≠ a.toNat := fun same => here (BitVec.eq_of_toNat_eq same)
    rw [Function.update_of_ne here, Function.update_of_ne (by omega), Function.update_of_ne (by omega),
      Function.update_of_ne (by omega), Function.update_of_ne (by omega)]

/-- The first `n` words set. -/
theorem setWords_words {data : Bytes} (sized : data.size = 2048) (d0 d1 : Byte) (n : ℕ) (few : n ≤ 1024) :
    ∃ data', (List.range n).foldlM (fun data k => M93C86.setWord data (2 * k) d0 d1) data = some data' ∧
      data'.size = 2048 ∧ ∀ x : Address, wordAt data' x = if x.toNat < n then d0 ++ d1 else wordAt data x := by
  induction n with
  | zero => exact ⟨data, rfl, sized, fun x => (if_neg (Nat.not_lt_zero _)).symm⟩
  | succ n ih =>
    obtain ⟨mid, run, sized', words⟩ := ih (by omega)
    have place : (BitVec.ofNat 10 n).toNat = n := by
      rw [BitVec.toNat_ofNat]
      exact Nat.mod_eq_of_lt few
    obtain ⟨data', is_data, sized'', words'⟩ := setWord_words sized' (BitVec.ofNat 10 n) d0 d1
    rw [place] at is_data
    refine ⟨data', ?_, sized'', fun x => ?_⟩
    · rw [List.range_succ, List.foldlM_append, run]
      simp only [Option.bind_eq_bind, Option.bind_some, List.foldlM_cons, List.foldlM_nil, is_data]
      rfl
    · rw [words']
      by_cases here : x = BitVec.ofNat 10 n
      · rw [here, Function.update_self, if_pos (by rw [place]; exact Nat.lt_succ_self n)]
      · have apart : x.toNat ≠ n := fun same => here (BitVec.eq_of_toNat_eq (same.trans place.symm))
        rw [Function.update_of_ne here, words]
        split
        next low => exact (if_pos (by omega)).symm
        next high => exact (if_neg (by omega)).symm

theorem fill_words {data : Bytes} (sized : data.size = 2048) : ∃ data', data.fill 0 data.size 0xFF = some data' ∧
    data'.size = 2048 ∧ wordAt data' = fun _ => 0xFFFF := by
  refine ⟨_, if_pos ⟨Nat.zero_le _, le_rfl⟩, sized, ?_⟩
  funext x
  have low := x.isLt
  unfold wordAt
  dsimp only
  rw [if_pos ⟨Nat.zero_le _, by omega⟩, if_pos ⟨Nat.zero_le _, by omega⟩]
  rfl

/-! ## What the chip does with the bits -/

/-- `m_cmd` after the bits of a command that is not complete, three of them or more. -/
def commandOf : List Bool → EepromCommand
  | true :: true :: false :: _ => .READ
  | true :: false :: true :: _ => .WRITE
  | true :: true :: true :: _ => .ERASE
  | true :: false :: false :: false :: true :: _ => .WRAL
  | true :: false :: false :: true :: false :: _ => .ERAL
  | true :: false :: false :: true :: true :: _ => .WEN
  | true :: false :: false :: false :: false :: _ => .WDS
  | _ => .CMD00

/-- Neither of the commands that put data out. -/
def Taking (cmd : EepromCommand) : Prop := cmd ≠ .READDUMMY ∧ cmd ≠ .READDATA

theorem taking_none : Taking .NONE := ⟨by decide, by decide⟩

theorem taking_erase : Taking .ERASE := ⟨by decide, by decide⟩

theorem taking_eral : Taking .ERAL := ⟨by decide, by decide⟩

theorem taking_data {cmd : EepromCommand} (is_ : cmd = .WRITE ∨ cmd = .WRAL) : Taking cmd := by
  rcases is_ with rfl | rfl <;> exact ⟨by decide, by decide⟩

def bitByte (b : Bool) : Byte := if b then 1 else 0

/-- The chip's input while a command comes in. -/
structure Incoming (bits : List Bool) (e : M93C86) : Prop where
  count : e.m_inCount = BitVec.ofNat 32 bits.length
  reg : e.m_inReg = BitVec.ofNat 32 (binary.value bits)
  start : bits = [] ∨ ∃ rest, bits = true :: rest
  taking : Taking e.m_cmd
  command : 3 ≤ bits.length → e.m_cmd = commandOf bits
  short : bits.length < 13 ∨ (bits.length < 29 ∧ (commandOf bits = .WRITE ∨ commandOf bits = .WRAL))

/-- The chip's output `k` clocks after a READ of `a`. -/
structure Outgoing (words : Address → Word) (a : Address) (k : ℕ) (e : M93C86) : Prop where
  count : e.m_inCount = 0
  reg : e.m_inReg = 0
  addr : e.m_addr = (a + BitVec.ofNat 10 (k / 16)).setWidth 32
  first : k = 0 → e.m_cmd = .READDUMMY
  later : ∀ j, k = j + 1 → e.m_cmd = .READDATA ∧ e.m_outCount = BitVec.ofNat 32 (k % 16) ∧
    e.m_outReg = e.data.item (2 * (a + BitVec.ofNat 10 (k / 16)).toNat + k % 16 / 8) <<< (k % 16 % 8) ∧
    e.m_out = bitByte ((words (a + BitVec.ofNat 10 (j / 16))).getLsbD (15 - j % 16))

/-- The chip's input and output, by what the store has been told. -/
inductive Stage (c : Chip) (e : M93C86) : Prop where
  | idle (off : c.selected = false) (bits : c.bits = []) (reading : c.reading = none) (taking : Taking e.m_cmd)
    (left : c.clock = true → e.m_inCount = 0 ∧ e.m_inReg = 0)
  | command (on : c.selected = true) (reading : c.reading = none) (incoming : Incoming c.bits e)
  | data (on : c.selected = true) (bits : c.bits = []) (a : Address) (k : ℕ) (reading : c.reading = some (a, k))
    (outgoing : Outgoing c.words a k e)

structure Agrees (c : Chip) (e : M93C86) : Prop where
  sized : e.data.size = 2048
  words : wordAt e.data = c.words
  selected : e.m_cs = bitByte c.selected
  clock : e.m_clock = bitByte c.clock
  wen : e.m_wen = (c.enabled || ewenBegun c.bits)
  stage : Stage c e

/-! ### Bits -/

theorem length_push (bits : List Bool) (b : Bool) : (bits ++ [b]).length = bits.length + 1 := List.length_append

theorem reg_push (n : ℕ) (b : Bool) :
    (BitVec.ofNat 32 n <<< 1) ||| (bitByte b).setWidth 32 = BitVec.ofNat 32 (n * 2 + b.toNat) := by
  have twice : BitVec.ofNat 32 n <<< 1 = BitVec.ofNat 32 (n * 2) := by
    apply BitVec.eq_of_toNat_eq
    rw [BitVec.toNat_shiftLeft, BitVec.toNat_ofNat, BitVec.toNat_ofNat, Nat.shiftLeft_eq]
    omega
  have low : (bitByte b).setWidth 32 = BitVec.ofNat 32 b.toNat := by cases b <;> rfl
  have apart : BitVec.ofNat 32 (n * 2) &&& BitVec.ofNat 32 b.toNat = 0 := by
    apply BitVec.eq_of_getLsbD_eq
    intro i small
    rw [BitVec.getLsbD_and, BitVec.getLsbD_ofNat, BitVec.getLsbD_ofNat]
    cases i with
    | zero => simp
    | succ i => cases b <;> simp [Nat.testBit_succ]
  rw [twice, low, ← BitVec.add_eq_or_of_and_eq_zero _ _ apart]
  exact (BitVec.ofNat_add ..).symm

theorem count_push (bits : List Bool) (b : Bool) :
    BitVec.ofNat 32 bits.length + 1 = BitVec.ofNat 32 (bits ++ [b]).length := by
  rw [length_push]
  exact (BitVec.ofNat_add ..).symm

theorem complete_none {bits : List Bool} (no_address : bits.length ≠ 13) (no_data : bits.length ≠ 29) :
    complete bits = none := by
  unfold complete
  dsimp only
  split <;> first | exact if_neg no_address | exact if_neg no_data | rfl

theorem five {bits : List Bool} (long : 5 ≤ bits.length) :
    ∃ v w x y z rest, bits = v :: w :: x :: y :: z :: rest := by
  rcases bits with _ | ⟨v, _ | ⟨w, _ | ⟨x, _ | ⟨y, _ | ⟨z, rest⟩⟩⟩⟩⟩
  · exact absurd long (by decide : ¬5 ≤ 0)
  · exact absurd long (by decide : ¬5 ≤ 1)
  · exact absurd long (by decide : ¬5 ≤ 2)
  · exact absurd long (by decide : ¬5 ≤ 3)
  · exact absurd long (by decide : ¬5 ≤ 4)
  · exact ⟨v, w, x, y, z, rest, rfl⟩

/-- After five bits the command is settled. -/
theorem settled {bits : List Bool} (b : Bool) (long : 5 ≤ bits.length) :
    commandOf (bits ++ [b]) = commandOf bits ∧ ewenBegun (bits ++ [b]) = ewenBegun bits := by
  obtain ⟨v, w, x, y, z, rest, rfl⟩ := five long
  cases v <;> cases w <;> cases x <;> cases y <;> cases z <;> exact ⟨rfl, rfl⟩

theorem commandOf_taking (bits : List Bool) : Taking (commandOf bits) := by
  unfold commandOf
  split <;> exact ⟨by decide, by decide⟩

/-! ### A clock -/

/-- A bit is in the register. -/
def pushed (bits : List Bool) (e : M93C86) : M93C86 :=
  { e with m_inReg := BitVec.ofNat 32 (binary.value bits), m_inCount := BitVec.ofNat 32 bits.length }

theorem clocked_more {c : Chip} {b : Bool} (reading : c.reading = none) (start : ¬(c.bits = [] ∧ b = false))
    (more : complete (c.bits ++ [b]) = none) : c.clocked b = { c with bits := c.bits ++ [b] } := by
  unfold Chip.clocked
  rw [reading]
  dsimp only
  rw [if_neg start, more]

theorem clocked_done {c : Chip} {b : Bool} {command : Command} (reading : c.reading = none)
    (start : ¬(c.bits = [] ∧ b = false)) (done : complete (c.bits ++ [b]) = some command) :
    c.clocked b = ({ c with bits := [] } : Chip).obey command := by
  unfold Chip.clocked
  rw [reading]
  dsimp only
  rw [if_neg start, done]

/-- The command is not complete yet. -/
theorem more_agrees {c : Chip} {e : M93C86} (agrees : Agrees c e) (on : c.selected = true) (reading : c.reading = none)
    {b : Bool} (start : ∃ rest, c.bits ++ [b] = true :: rest) (more : complete (c.bits ++ [b]) = none)
    {cmd : EepromCommand} {wen : Bool} (taking : Taking cmd)
    (command : 2 ≤ c.bits.length → cmd = commandOf (c.bits ++ [b]))
    (short : (c.bits ++ [b]).length < 13 ∨
      ((c.bits ++ [b]).length < 29 ∧ (commandOf (c.bits ++ [b]) = .WRITE ∨ commandOf (c.bits ++ [b]) = .WRAL)))
    (is_wen : wen = (c.enabled || ewenBegun (c.bits ++ [b]))) :
    Agrees (c.clocked b) { pushed (c.bits ++ [b]) e with m_cmd := cmd, m_wen := wen } := by
  have begun : ¬(c.bits = [] ∧ b = false) := by
    intro both
    obtain ⟨rest, is_⟩ := start
    rw [both.1, both.2] at is_
    cases is_
  rw [clocked_more reading begun more]
  refine ⟨agrees.sized, agrees.words, agrees.selected, agrees.clock, is_wen, .command on reading ?_⟩
  refine ⟨rfl, rfl, .inr start, taking, fun long => command ?_, short⟩
  have grown : 3 ≤ (c.bits ++ [b]).length := long
  rw [length_push] at grown
  omega

/-- A command is complete; the next bits are those of another. -/
theorem done_agrees {c : Chip} {e : M93C86} (on : c.selected = true) (reading : c.reading = none) (empty : c.bits = [])
    (sized : e.data.size = 2048) (words : wordAt e.data = c.words) (selected : e.m_cs = bitByte c.selected)
    (clock : e.m_clock = bitByte c.clock) (wen : e.m_wen = c.enabled) (taking : Taking e.m_cmd) :
    Agrees c e.resetInput := by
  refine ⟨sized, words, selected, clock, ?_, .command on reading ⟨?_, ?_, .inl empty, taking, ?_, ?_⟩⟩
  · rw [empty]
    exact wen.trans (Bool.or_false _).symm
  · rw [empty]
    rfl
  · rw [empty]
    rfl
  · rw [empty]
    exact fun long => absurd long (by decide)
  · rw [empty]
    exact .inl (by decide)

theorem wen_empty {c : Chip} {e : M93C86} (agrees : Agrees c e) (none_ : ewenBegun c.bits = false) :
    e.m_wen = c.enabled := by
  rw [agrees.wen, none_, Bool.or_false]

/-- The start bit, or none before it. -/
theorem first_bit {c : Chip} {e : M93C86} (agrees : Agrees c e) (on : c.selected = true) (reading : c.reading = none)
    (taking : Taking e.m_cmd) {b : Bool} (empty : c.bits = []) :
    Agrees (c.clocked b)
      (if bitByte b = 0 then (pushed (c.bits ++ [b]) e).resetInput else pushed (c.bits ++ [b]) e) := by
  have begun : ewenBegun c.bits = false := by
    rw [empty]
    rfl
  cases b with
  | false =>
    have same : c.clocked false = c := by
      unfold Chip.clocked
      rw [reading]
      exact if_pos ⟨empty, rfl⟩
    rw [same]
    have wen := wen_empty agrees begun
    exact done_agrees on reading empty agrees.sized agrees.words agrees.selected agrees.clock wen taking
  | true =>
    rw [if_neg (by decide)]
    refine more_agrees agrees on reading ⟨[], by rw [empty]; rfl⟩ (by rw [empty]; rfl) taking ?_ ?_ ?_
    · rw [empty]
      exact fun long => absurd long (by decide)
    · rw [empty]
      exact .inl (by decide)
    · rw [empty, agrees.wen, empty]
      rfl

/-- The third bit: the opcode is there. -/
theorem third_bit {c : Chip} {e : M93C86} (agrees : Agrees c e) (on : c.selected = true) (reading : c.reading = none)
    (incoming : Incoming c.bits e) {b : Bool} (len : (c.bits ++ [b]).length = 3) :
    Agrees (c.clocked b) { pushed (c.bits ++ [b]) e with m_cmd := (pushed (c.bits ++ [b]) e).opcode } := by
  have two : c.bits.length = 2 := by
    rw [length_push] at len
    omega
  obtain ⟨x, is_⟩ : ∃ x, c.bits = [true, x] := by
    rcases incoming.start with empty | ⟨rest, first⟩
    · rw [empty] at two
      cases two
    · rw [first] at two
      obtain ⟨x, rfl⟩ := List.length_eq_one_iff.mp (Nat.succ.inj two)
      exact ⟨x, first⟩
  have op : (pushed (c.bits ++ [b]) e).opcode = commandOf (c.bits ++ [b]) := by
    rw [is_]
    cases x <;> cases b <;> rfl
  have wen : ewenBegun (c.bits ++ [b]) = ewenBegun c.bits := by
    rw [is_]
    cases x <;> cases b <;> rfl
  rw [op]
  refine more_agrees agrees on reading (by rw [is_]; exact ⟨_, rfl⟩)
    (complete_none (by rw [len]; decide) (by rw [len]; decide)) (commandOf_taking _) (fun _ => rfl) ?_ ?_
  · rw [len]
    exact .inl (by decide)
  · rw [wen]
    exact agrees.wen

/-- The fifth bit: opcode 00 is settled. -/
theorem fifth_bit {c : Chip} {e : M93C86} (agrees : Agrees c e) (on : c.selected = true) (reading : c.reading = none)
    (incoming : Incoming c.bits e) {b : Bool} (len : (c.bits ++ [b]).length = 5) :
    Agrees (c.clocked b) (pushed (c.bits ++ [b]) e).opcode00 := by
  have four : c.bits.length = 4 := by
    rw [length_push] at len
    omega
  obtain ⟨x, y, z, is_⟩ : ∃ x y z, c.bits = [true, x, y, z] := by
    rcases incoming.start with empty | ⟨rest, first⟩
    · rw [empty] at four
      cases four
    · rw [first] at four
      obtain ⟨x, y, z, rfl⟩ := List.length_eq_three.mp (Nat.succ.inj four)
      exact ⟨x, y, z, first⟩
  have cmd := incoming.command (by rw [four]; decide)
  have wen := agrees.wen
  rw [is_] at cmd wen
  have op : (pushed (c.bits ++ [b]) e).opcode00 = { pushed (c.bits ++ [b]) e with
      m_cmd := commandOf (c.bits ++ [b]), m_wen := c.enabled || ewenBegun (c.bits ++ [b]) } := by
    unfold M93C86.opcode00 pushed
    dsimp only
    rw [cmd, wen, is_]
    cases x <;> cases y <;> cases z <;> cases b
    all_goals first | rfl | simp [commandOf, ewenBegun, binary, Digits.value]
  rw [op]
  refine more_agrees agrees on reading (by rw [is_]; exact ⟨_, rfl⟩)
    (complete_none (by rw [len]; decide) (by rw [len]; decide)) (commandOf_taking _) (fun _ => rfl) ?_ rfl
  rw [len]
  exact .inl (by decide)

/-- A bit between these. -/
theorem other_bit {c : Chip} {e : M93C86} (agrees : Agrees c e) (on : c.selected = true) (reading : c.reading = none)
    (incoming : Incoming c.bits e) {b : Bool} (start : ∃ rest, c.bits ++ [b] = true :: rest)
    (more : complete (c.bits ++ [b]) = none) (third : (c.bits ++ [b]).length ≠ 3)
    (fifth : (c.bits ++ [b]).length ≠ 5)
    (short : (c.bits ++ [b]).length < 13 ∨
      ((c.bits ++ [b]).length < 29 ∧ (commandOf (c.bits ++ [b]) = .WRITE ∨ commandOf (c.bits ++ [b]) = .WRAL))) :
    Agrees (c.clocked b) (pushed (c.bits ++ [b]) e) := by
  rw [length_push] at third fifth
  have same : (3 ≤ c.bits.length → commandOf (c.bits ++ [b]) = commandOf c.bits) ∧
      ewenBegun (c.bits ++ [b]) = ewenBegun c.bits := by
    by_cases long : 5 ≤ c.bits.length
    · exact ⟨fun _ => (settled b long).1, (settled b long).2⟩
    · rcases bits : c.bits with _ | ⟨v, _ | ⟨w, _ | ⟨x, _ | ⟨y, rest⟩⟩⟩⟩
      · exact ⟨fun long => absurd long (by decide), by cases b <;> rfl⟩
      · exact ⟨fun long => absurd long (by show ¬3 ≤ 1; decide), by cases v <;> cases b <;> rfl⟩
      · exact absurd (by rw [bits]; rfl) third
      · refine ⟨fun _ => ?_, ?_⟩ <;> cases v <;> cases w <;> cases x <;> cases b <;> rfl
      · exfalso
        rw [bits] at fifth long
        simp only [List.length_cons] at fifth long
        omega
  refine more_agrees agrees on reading start more incoming.taking (fun long => ?_) short ?_
  · rw [same.1 (by omega)]
    exact incoming.command (by omega)
  · rw [same.2]
    exact agrees.wen

/-! ### The last bit of a command -/

theorem masked_addr (x : BitVec 32) : x &&& 0x3FF = (x.setWidth 10).setWidth 32 := by
  apply BitVec.eq_of_toNat_eq
  rw [BitVec.toNat_and, BitVec.toNat_setWidth, BitVec.toNat_setWidth]
  show x.toNat &&& (2 ^ 10 - 1) = _
  rw [Nat.and_two_pow_sub_one_eq_mod]
  omega

theorem place_addr (a : Address) : (a.setWidth 32 <<< 1).toNat = 2 * a.toNat := by
  have low := a.isLt
  rw [BitVec.toNat_shiftLeft, BitVec.toNat_setWidth, Nat.shiftLeft_eq]
  omega

theorem low_addr (n : ℕ) : (BitVec.ofNat 32 n).setWidth 10 = BitVec.ofNat 10 n := by
  apply BitVec.eq_of_toNat_eq
  rw [BitVec.toNat_setWidth, BitVec.toNat_ofNat, BitVec.toNat_ofNat]
  omega

theorem high_addr (n : ℕ) : (BitVec.ofNat 32 n >>> 16).setWidth 10 = BitVec.ofNat 10 (n / 2 ^ 16) := by
  apply BitVec.eq_of_toNat_eq
  rw [BitVec.toNat_setWidth, BitVec.toNat_ushiftRight, BitVec.toNat_ofNat, BitVec.toNat_ofNat,
    Nat.shiftRight_eq_div_pow]
  omega

theorem word_of (n : ℕ) :
    (BitVec.ofNat 32 n >>> 8).setWidth 8 ++ (BitVec.ofNat 32 n).setWidth 8 = BitVec.ofNat 16 n := by
  apply BitVec.eq_of_toNat_eq
  rw [BitVec.toNat_append, ← Nat.shiftLeft_add_eq_or_of_lt (BitVec.isLt _), BitVec.toNat_setWidth,
    BitVec.toNat_setWidth, BitVec.toNat_ushiftRight, BitVec.toNat_ofNat, BitVec.toNat_ofNat,
    Nat.shiftRight_eq_div_pow, Nat.shiftLeft_eq]
  omega

/-- A word is stored. -/
theorem store_words {e : M93C86} (sized : e.data.size = 2048) {a : Address} (addr : e.m_addr = a.setWidth 32)
    (d0 d1 : Byte) : ∃ data', e.store d0 d1 = some { e with data := data' } ∧ data'.size = 2048 ∧
      wordAt data' = Function.update (wordAt e.data) a (d0 ++ d1) := by
  obtain ⟨data', is_data, sized', words⟩ := setWord_words sized a d0 d1
  unfold M93C86.store
  rw [addr, place_addr, is_data]
  exact ⟨data', rfl, sized', words⟩

/-- Every word is stored. -/
theorem storeAll_words {e : M93C86} (sized : e.data.size = 2048) (d0 d1 : Byte) :
    ∃ data', e.storeAll d0 d1 = some { e with data := data' } ∧ data'.size = 2048 ∧
      wordAt data' = fun _ => d0 ++ d1 := by
  obtain ⟨data', run, sized', words⟩ := setWords_words sized d0 d1 1024 le_rfl
  have half : (e.data.size + 1) / 2 = 1024 := by rw [sized]
  unfold M93C86.storeAll
  rw [half, run]
  refine ⟨data', rfl, sized', ?_⟩
  funext x
  rw [words, if_pos x.isLt]

/-- What a command leaves besides the words. -/
structure Stored (e e' : M93C86) (words : Address → Word) : Prop where
  sized : e'.data.size = 2048
  words : wordAt e'.data = words
  selected : e'.m_cs = e.m_cs
  clock : e'.m_clock = e.m_clock
  wen : e'.m_wen = e.m_wen
  taking : Taking e'.m_cmd

theorem addressed_read {e : M93C86} (cmd : e.m_cmd = .READ) :
    e.addressed = some { e with m_cmd := .READDUMMY, m_addr := e.m_inReg &&& 0x3FF }.resetInput := by
  unfold M93C86.addressed
  rw [cmd]

theorem addressed_wen {e : M93C86} {on : Bool} (cmd : e.m_cmd = if on then .WEN else .WDS) :
    e.addressed = some { { e with m_wen := on }.resetInput with m_cmd := .NONE } := by
  unfold M93C86.addressed
  rw [cmd]
  cases on <;> rfl

theorem addressed_data {e : M93C86} (cmd : e.m_cmd = .WRITE ∨ e.m_cmd = .WRAL) : e.addressed = some e := by
  unfold M93C86.addressed
  rcases cmd with cmd | cmd <;> rw [cmd]

theorem addressed_erase {e : M93C86} (cmd : e.m_cmd = .ERASE) (sized : e.data.size = 2048) {a : Address}
    (addr : e.m_inReg &&& 0x3FF = a.setWidth 32) : ∃ e', e.addressed = some e'.resetInput ∧
      Stored e e' (if e.m_wen then Function.update (wordAt e.data) a 0xFFFF else wordAt e.data) := by
  obtain ⟨data, cs, clock, pin, out, reg, count, outReg, outCount, m_cmd, m_addr, wen⟩ := e
  obtain rfl : m_cmd = .ERASE := cmd
  unfold M93C86.addressed
  dsimp only
  split
  next =>
    obtain ⟨data', is_data, sized', words⟩ := @store_words
      ⟨data, cs, clock, pin, out, reg, count, outReg, outCount, .ERASE, reg &&& 0x3FF, wen⟩ sized a addr 0xFF 0xFF
    rw [is_data]
    exact ⟨_, rfl, sized', words, rfl, rfl, rfl, taking_erase⟩
  next => exact ⟨_, rfl, sized, rfl, rfl, rfl, rfl, taking_none⟩

theorem addressed_eral {e : M93C86} (cmd : e.m_cmd = .ERAL) (sized : e.data.size = 2048) :
    ∃ e', e.addressed = some e'.resetInput ∧
      Stored e e' (if e.m_wen then fun _ => 0xFFFF else wordAt e.data) := by
  unfold M93C86.addressed
  rw [cmd]
  dsimp only
  split
  next =>
    obtain ⟨data', is_data, sized', words⟩ := fill_words sized
    rw [is_data]
    exact ⟨_, rfl, sized', words, rfl, rfl, rfl, taking_eral⟩
  next => exact ⟨_, rfl, sized, rfl, rfl, rfl, rfl, taking_none⟩

theorem filled_write {e : M93C86} (cmd : e.m_cmd = .WRITE) (sized : e.data.size = 2048) {n : ℕ}
    (reg : e.m_inReg = BitVec.ofNat 32 n) : ∃ e', e.filled = some e'.resetInput ∧ Stored e e'
      (if e.m_wen then Function.update (wordAt e.data) (BitVec.ofNat 10 (n / 2 ^ 16)) (BitVec.ofNat 16 n)
        else wordAt e.data) := by
  have addr : (e.m_inReg >>> 16) &&& 0x3FF = (BitVec.ofNat 10 (n / 2 ^ 16)).setWidth 32 := by
    rw [masked_addr, reg, high_addr]
  have value : (e.m_inReg >>> 8).setWidth 8 ++ e.m_inReg.setWidth 8 = BitVec.ofNat 16 n := by
    rw [reg, word_of]
  unfold M93C86.filled
  rw [if_pos (.inl cmd)]
  split
  next =>
    obtain ⟨data', is_data, sized', words⟩ :=
      @store_words { e with m_addr := (e.m_inReg >>> 16) &&& 0x3FF } sized _ addr
        ((e.m_inReg >>> 8).setWidth 8) (e.m_inReg.setWidth 8)
    dsimp only
    rw [is_data]
    exact ⟨_, rfl, sized', value ▸ words, rfl, rfl, rfl, taking_data (.inl cmd)⟩
  next => exact ⟨_, rfl, sized, rfl, rfl, rfl, rfl, taking_none⟩

theorem filled_wral {e : M93C86} (cmd : e.m_cmd = .WRAL) (sized : e.data.size = 2048) {n : ℕ}
    (reg : e.m_inReg = BitVec.ofNat 32 n) : ∃ e', e.filled = some e'.resetInput ∧
      Stored e e' (if e.m_wen then fun _ => BitVec.ofNat 16 n else wordAt e.data) := by
  have value : (e.m_inReg >>> 8).setWidth 8 ++ e.m_inReg.setWidth 8 = BitVec.ofNat 16 n := by
    rw [reg, word_of]
  have not_write : ¬e.m_cmd = .WRITE := by
    rw [cmd]
    decide
  unfold M93C86.filled
  rw [if_pos (.inr cmd)]
  split
  next =>
    obtain ⟨data', is_data, sized', words⟩ :=
      storeAll_words sized ((e.m_inReg >>> 8).setWidth 8) (e.m_inReg.setWidth 8)
    dsimp only
    rw [is_data]
    exact ⟨_, rfl, sized', value ▸ words, rfl, rfl, rfl, taking_data (.inr cmd)⟩
  next => exact ⟨_, rfl, sized, rfl, rfl, rfl, rfl, taking_none⟩

section
variable {c : Chip} {e : M93C86} (agrees : Agrees c e) (on : c.selected = true) (reading : c.reading = none)
include agrees on reading

/-- A command that stores words, and did if writes are enabled. -/
theorem stored_agrees {bits : List Bool} {e' : M93C86} {command : Command} {words : Address → Word}
    (wen : e.m_wen = c.enabled) (stored : Stored (pushed bits e) e' (if e.m_wen then words else c.words))
    (obeyed : ({ c with bits := [] } : Chip).obey command =
      if c.enabled then { c with bits := [], words := words } else { c with bits := [] }) :
    Agrees (({ c with bits := [] } : Chip).obey command) e'.resetInput := by
  have words' := stored.words
  rw [obeyed]
  rw [wen] at words'
  split
  next enabled =>
    rw [if_pos enabled] at words'
    exact done_agrees on reading rfl stored.sized words' (stored.selected.trans agrees.selected)
      (stored.clock.trans agrees.clock) (stored.wen.trans wen) stored.taking
  next disabled =>
    rw [if_neg disabled] at words'
    exact done_agrees on reading rfl stored.sized words' (stored.selected.trans agrees.selected)
      (stored.clock.trans agrees.clock) (stored.wen.trans wen) stored.taking

variable {b : Bool} (incoming : Incoming c.bits e)
include incoming

omit on reading in
/-- After the fifth bit. -/
theorem late (long : 5 ≤ c.bits.length) : ∃ w x y z rest, c.bits ++ [b] = true :: w :: x :: y :: z :: rest ∧
    e.m_cmd = commandOf (true :: w :: x :: y :: z :: rest) ∧
    e.m_wen = (c.enabled || ewenBegun (true :: w :: x :: y :: z :: rest)) ∧ ¬(c.bits = [] ∧ b = false) := by
  obtain ⟨v, w, x, y, z, rest, is_⟩ := five long
  have cmd := incoming.command (by omega)
  have wen := agrees.wen
  obtain ⟨same, same'⟩ := settled b long
  rw [← same] at cmd
  rw [← same'] at wen
  have begun : ¬(c.bits = [] ∧ b = false) := by
    intro both
    rw [both.1] at long
    cases long
  rcases incoming.start with empty | ⟨rest', first⟩
  · exact absurd empty fun empty => begun ⟨empty, by rw [empty] at is_; cases is_⟩
  · obtain ⟨rfl, -⟩ := List.cons.inj (is_.symm.trans first)
    rw [is_] at cmd wen
    exact ⟨w, x, y, z, rest ++ [b], by rw [is_]; rfl, cmd, wen, begun⟩

theorem address_bit (len : (c.bits ++ [b]).length = 13) :
    ∃ e', (pushed (c.bits ++ [b]) e).addressed = some e' ∧ Agrees (c.clocked b) e' := by
  have long : 5 ≤ c.bits.length := by
    rw [length_push] at len
    omega
  obtain ⟨w, x, y, z, rest, is_, cmd, wen, begun⟩ := late agrees incoming (b := b) long
  have other := @other_bit c e agrees on reading incoming b ⟨_, is_⟩
  have done (command : Command) := @clocked_done c b command reading begun
  rw [is_] at other done len ⊢
  have thirteen : ¬(true :: w :: x :: y :: z :: rest).length = 29 := by
    rw [len]
    decide
  have waits (cmd : commandOf (true :: w :: x :: y :: z :: rest) = .WRITE ∨
      commandOf (true :: w :: x :: y :: z :: rest) = .WRAL)
      (more : complete (true :: w :: x :: y :: z :: rest) = none) :
      Agrees (c.clocked b) (pushed (true :: w :: x :: y :: z :: rest) e) :=
    other more (by rw [len]; decide) (by rw [len]; decide) (.inr ⟨by rw [len]; decide, cmd⟩)
  have addr : (pushed (true :: w :: x :: y :: z :: rest) e).m_inReg &&& 0x3FF =
      (BitVec.ofNat 10 (binary.value (true :: w :: x :: y :: z :: rest))).setWidth 32 :=
    (masked_addr _).trans (congrArg _ (low_addr _))
  cases w with
  | true =>
    cases x with
    | false =>
      rw [@addressed_read (pushed _ e) cmd, done (.read _) (if_pos len)]
      refine ⟨_, rfl, agrees.sized, agrees.words, agrees.selected, agrees.clock, wen, ?_⟩
      refine .data on rfl _ 0 rfl ⟨rfl, rfl, ?_, fun _ => rfl, fun _ wrong => by cases wrong⟩
      exact addr.trans (congrArg _ (BitVec.add_zero _).symm)
    | true =>
      have enabled := wen.trans (Bool.or_false _)
      obtain ⟨e', run, stored⟩ := @addressed_erase (pushed _ e) cmd agrees.sized _ addr
      rw [run, done (.erase _) (if_pos len)]
      exact ⟨_, rfl, stored_agrees agrees on reading enabled (agrees.words ▸ stored) rfl⟩
  | false =>
    cases x with
    | true =>
      rw [@addressed_data (pushed _ e) (.inl cmd)]
      exact ⟨_, rfl, waits (.inl rfl) (if_neg thirteen)⟩
    | false =>
      cases y <;> cases z
      · rw [@addressed_wen (pushed _ e) false cmd, done .ewds (if_pos len)]
        refine ⟨_, rfl, ?_⟩
        show Agrees _ (M93C86.resetInput { e with m_wen := false, m_cmd := .NONE })
        exact done_agrees on reading rfl agrees.sized agrees.words agrees.selected agrees.clock rfl taking_none
      · rw [@addressed_data (pushed _ e) (.inr cmd)]
        exact ⟨_, rfl, waits (.inr rfl) (if_neg thirteen)⟩
      · have enabled := wen.trans (Bool.or_false _)
        obtain ⟨e', run, stored⟩ := @addressed_eral (pushed _ e) cmd agrees.sized
        rw [run, done .eral (if_pos len)]
        exact ⟨_, rfl, stored_agrees agrees on reading enabled (agrees.words ▸ stored) rfl⟩
      · rw [@addressed_wen (pushed _ e) true cmd, done .ewen (if_pos len)]
        refine ⟨_, rfl, ?_⟩
        show Agrees _ (M93C86.resetInput { e with m_wen := true, m_cmd := .NONE })
        exact done_agrees on reading rfl agrees.sized agrees.words agrees.selected agrees.clock rfl taking_none

theorem data_bit (len : (c.bits ++ [b]).length = 29) :
    ∃ e', (pushed (c.bits ++ [b]) e).filled = some e' ∧ Agrees (c.clocked b) e' := by
  have twenty_eight : c.bits.length = 28 := by
    rw [length_push] at len
    omega
  have long : 5 ≤ c.bits.length := by omega
  obtain ⟨w, x, y, z, rest, is_, cmd, wen, begun⟩ := late agrees incoming (b := b) long
  have done (command : Command) := @clocked_done c b command reading begun
  have data : commandOf (c.bits ++ [b]) = .WRITE ∨ commandOf (c.bits ++ [b]) = .WRAL := by
    rw [(settled b long).1]
    exact (incoming.short.resolve_left (by omega)).2
  rw [is_] at done len data ⊢
  cases w with
  | true => cases x <;> rcases data with wrong | wrong <;> cases wrong
  | false =>
    have enabled : e.m_wen = c.enabled := by
      cases x with
      | true => exact wen.trans (Bool.or_false _)
      | false =>
        cases y <;> cases z
        · exact wen.trans (Bool.or_false _)
        · exact wen.trans (Bool.or_false _)
        · exact wen.trans (Bool.or_false _)
        · rcases data with wrong | wrong <;> cases wrong
    cases x with
    | true =>
      obtain ⟨e', run, stored⟩ := @filled_write (pushed _ e) cmd agrees.sized _ rfl
      rw [run, done (.write _ _) (if_pos len)]
      exact ⟨_, rfl, stored_agrees agrees on reading enabled (agrees.words ▸ stored) rfl⟩
    | false =>
      cases y <;> cases z
      · rcases data with wrong | wrong <;> cases wrong
      · obtain ⟨e', run, stored⟩ := @filled_wral (pushed _ e) cmd agrees.sized _ rfl
        rw [run, done (.wral _) (if_pos len)]
        exact ⟨_, rfl, stored_agrees agrees on reading enabled (agrees.words ▸ stored) rfl⟩
      · rcases data with wrong | wrong <;> cases wrong
      · rcases data with wrong | wrong <;> cases wrong
/-- A bit of a command. -/
theorem shiftIn_agrees (pin : e.m_in = bitByte b) : ∃ e', e.shiftIn = some e' ∧ Agrees (c.clocked b) e' := by
  have few : (c.bits ++ [b]).length < 30 := by
    rw [length_push]
    rcases incoming.short with short | short <;> omega
  have count : (BitVec.ofNat 32 (c.bits ++ [b]).length).toNat = (c.bits ++ [b]).length := by
    rw [BitVec.toNat_ofNat]
    omega
  have value : binary.value c.bits * 2 + b.toNat = binary.value (c.bits ++ [b]) := (binary.value_concat ..).symm
  have input : { e with
      m_inReg := (e.m_inReg <<< 1) ||| e.m_in.setWidth 32
      m_inCount := e.m_inCount + 1 } = pushed (c.bits ++ [b]) e := by
    unfold pushed
    rw [incoming.reg, incoming.count, pin, reg_push, count_push, value]
  unfold M93C86.shiftIn
  rw [input]
  dsimp only
  rw [show (pushed (c.bits ++ [b]) e).m_inCount = BitVec.ofNat 32 (c.bits ++ [b]).length from rfl, count]
  split
  next len =>
    have empty : c.bits = [] := by
      rw [length_push] at len
      exact List.eq_nil_of_length_eq_zero (Nat.succ.inj len)
    rw [show (pushed (c.bits ++ [b]) e).m_in = bitByte b from pin]
    exact ⟨_, rfl, first_bit agrees on reading incoming.taking empty⟩
  next len => exact ⟨_, rfl, third_bit agrees on reading incoming len⟩
  next len => exact ⟨_, rfl, fifth_bit agrees on reading incoming len⟩
  next len => exact address_bit agrees on reading incoming len
  next len => exact data_bit agrees on reading incoming len
  next first third fifth address data =>
    have start : ∃ rest, c.bits ++ [b] = true :: rest := by
      rcases incoming.start with empty | ⟨rest, is_⟩
      · exact absurd (by rw [empty]; rfl) first
      · exact ⟨rest ++ [b], by rw [is_]; rfl⟩
    refine ⟨_, rfl, other_bit agrees on reading incoming start (complete_none address data) third fifth ?_⟩
    have short_of : (c.bits ++ [b]).length ≠ 13 ∧ (c.bits ++ [b]).length ≠ 29 := ⟨address, data⟩
    rw [length_push] at few short_of ⊢
    rcases incoming.short with short | short
    · exact .inl (by omega)
    · by_cases long : 5 ≤ c.bits.length
      · rw [(settled b long).1]
        exact .inr ⟨by omega, short.2⟩
      · exact .inl (by omega)
end

/-! ### A clock of a READ -/

theorem wordAt_bit (data : Bytes) (a : Address) {j : ℕ} (low : j < 16) :
    (wordAt data a).getLsbD (15 - j) = (data.item (2 * a.toNat + j / 8)).getLsbD (7 - j % 8) := by
  unfold wordAt
  rw [BitVec.getLsbD_append]
  by_cases high : j < 8
  · rw [if_neg (by omega), Nat.div_eq_of_lt high, Nat.mod_eq_of_lt high, Nat.add_zero]
    congr 1
    omega
  · have one : j / 8 = 1 := by omega
    rw [if_pos (by omega), one]
    congr 1
    omega

theorem shifted_bit : ∀ j : ℕ, j < 8 → ∀ x : Byte, ((x <<< j) >>> 7) &&& 1 = bitByte (x.getLsbD (7 - j)) := by
  decide

theorem next_addr (a : Address) : (a.setWidth 32 + 1) &&& 0x3FF = (a + 1).setWidth 32 := by
  have low := a.isLt
  have one32 : (1 : BitVec 32).toNat = 1 := rfl
  have one10 : (1 : Address).toNat = 1 := rfl
  rw [masked_addr]
  congr 1
  apply BitVec.eq_of_toNat_eq
  rw [BitVec.toNat_setWidth, BitVec.toNat_add, BitVec.toNat_add, BitVec.toNat_setWidth, one32, one10]
  omega

/-- Both bytes of a word are there. -/
theorem get_bytes {data : Bytes} (sized : data.size = 2048) (a : Address) :
    data.get (2 * a.toNat) = some (data.item (2 * a.toNat)) ∧
      data.get (2 * a.toNat + 1) = some (data.item (2 * a.toNat + 1)) := by
  have low := a.isLt
  exact ⟨Buffer.get_of_lt (by omega), Buffer.get_of_lt (by omega)⟩

theorem outgoing_of {words : Address → Word} {a : Address} {k p q : ℕ} {e : M93C86} (is_p : (k + 1) / 16 = p)
    (is_q : (k + 1) % 16 = q) (count : e.m_inCount = 0) (reg : e.m_inReg = 0)
    (addr : e.m_addr = (a + BitVec.ofNat 10 p).setWidth 32) (cmd : e.m_cmd = .READDATA)
    (outCount : e.m_outCount = BitVec.ofNat 32 q)
    (outReg : e.m_outReg = e.data.item (2 * (a + BitVec.ofNat 10 p).toNat + q / 8) <<< (q % 8))
    (out : e.m_out = bitByte ((words (a + BitVec.ofNat 10 (k / 16))).getLsbD (15 - k % 16))) :
    Outgoing words a (k + 1) e := by
  subst is_p is_q
  refine ⟨count, reg, addr, fun wrong => absurd wrong (Nat.succ_ne_zero k), fun j same => ?_⟩
  obtain rfl : k = j := Nat.succ.inj same
  exact ⟨cmd, outCount, outReg, out⟩

/-- The first bit of a READ. -/
theorem first_clock {c : Chip} {e : M93C86} (agrees : Agrees c e) (on : c.selected = true) (bits : c.bits = [])
    {a : Address} (outgoing : Outgoing c.words a 0 e) :
    ∃ e', e.clock = some e' ∧ Agrees { c with reading := some (a, 1) } e' := by
  have here : a + BitVec.ofNat 10 (0 / 16) = a := BitVec.add_zero a
  have addr := outgoing.addr
  rw [here] at addr
  have place : (e.m_addr <<< 1).toNat = 2 * a.toNat := by rw [addr, place_addr]
  unfold M93C86.clock
  rw [outgoing.first rfl]
  dsimp only
  rw [place, (get_bytes agrees.sized _).1]
  refine ⟨_, rfl, agrees.sized, agrees.words, agrees.selected, agrees.clock, agrees.wen, ?_⟩
  have bit : (e.data.item (2 * a.toNat) >>> 7) &&& 1 = bitByte ((wordAt e.data a).getLsbD (15 - 0)) := by
    have first := shifted_bit 0 (by decide) (e.data.item (2 * a.toNat))
    rw [BitVec.shiftLeft_zero] at first
    rw [wordAt_bit e.data a (by decide), Nat.zero_div, Nat.zero_mod, Nat.add_zero, first]
  have next := @outgoing_of c.words a 0 0 1 { { e with m_outReg := e.data.item (2 * a.toNat) }.shiftOut with
    m_outCount := 1, m_cmd := .READDATA } rfl rfl outgoing.count outgoing.reg outgoing.addr rfl rfl
  refine .data on bits a 1 rfl (next ?_ ?_)
  · rw [show a + BitVec.ofNat 10 0 = a from here]
    rfl
  · rw [here, ← agrees.words]
    exact bit

/-- The next bits: after the eighth the word's second byte, after the sixteenth the next word. -/
theorem next_clock {c : Chip} {e : M93C86} (agrees : Agrees c e) (on : c.selected = true) (bits : c.bits = [])
    {a : Address} {k : ℕ} (outgoing : Outgoing c.words a (k + 1) e) :
    ∃ e', e.clock = some e' ∧ Agrees { c with reading := some (a, k + 2) } e' := by
  obtain ⟨cmd, count, reg, -⟩ := outgoing.later k rfl
  have addr := outgoing.addr
  generalize is_p : (k + 1) / 16 = p at *
  generalize is_q : (k + 1) % 16 = q at *
  have low : q < 16 := is_q ▸ Nat.mod_lt _ (by decide)
  have bit : (e.m_outReg >>> 7) &&& 1 = bitByte ((c.words (a + BitVec.ofNat 10 p)).getLsbD (15 - q)) := by
    rw [reg, shifted_bit _ (Nat.mod_lt _ (by decide)), ← agrees.words, wordAt_bit _ _ low]
  have counted : e.m_outCount + 1 = BitVec.ofNat 32 (q + 1) := by
    rw [count]
    exact (BitVec.ofNat_add ..).symm
  have same_iff (n : ℕ) (few : n ≤ 16) : BitVec.ofNat 32 (q + 1) = BitVec.ofNat 32 n ↔ q + 1 = n := by
    rw [← BitVec.toNat_inj, BitVec.toNat_ofNat, BitVec.toNat_ofNat]
    omega
  have place : (e.m_addr <<< 1).toNat = 2 * (a + BitVec.ofNat 10 p).toNat := by
    rw [addr, place_addr]
  have out : bitByte ((c.words (a + BitVec.ofNat 10 p)).getLsbD (15 - q)) =
      bitByte ((c.words (a + BitVec.ofNat 10 ((k + 1) / 16))).getLsbD (15 - (k + 1) % 16)) := by
    rw [is_p, is_q]
  unfold M93C86.clock M93C86.shiftOut
  rw [cmd]
  dsimp only
  rw [counted, place, bit]
  split
  next eighth =>
    have seven := (same_iff 8 (by decide)).mp eighth
    rw [(get_bytes agrees.sized _).2]
    refine ⟨_, rfl, agrees.sized, agrees.words, agrees.selected, agrees.clock, agrees.wen, ?_⟩
    refine .data on bits a (k + 2) rfl (outgoing_of (p := p) (q := 8) (by omega) (by omega) outgoing.count outgoing.reg
      addr rfl ?_ ?_ out)
    · exact eighth
    · exact (BitVec.shiftLeft_zero _).symm
  next not_eighth =>
    split
    next sixteenth =>
      have fifteen := (same_iff 16 le_rfl).mp sixteenth
      have following : (e.m_addr + 1) &&& 0x3FF = (a + BitVec.ofNat 10 (p + 1)).setWidth 32 := by
        rw [addr, next_addr, BitVec.add_assoc, BitVec.ofNat_add]
        rfl
      rw [following, place_addr, (get_bytes agrees.sized _).1]
      refine ⟨_, rfl, agrees.sized, agrees.words, agrees.selected, agrees.clock, agrees.wen, ?_⟩
      refine .data on bits a (k + 2) rfl (outgoing_of (p := p + 1) (q := 0) (by omega) (by omega) outgoing.count
        outgoing.reg rfl rfl rfl ?_ out)
      exact (BitVec.shiftLeft_zero _).symm
    next not_sixteenth =>
      have seven : q + 1 ≠ 8 := fun same => not_eighth ((same_iff 8 (by decide)).mpr same)
      have fifteen : q + 1 ≠ 16 := fun same => not_sixteenth ((same_iff 16 le_rfl).mpr same)
      refine ⟨_, rfl, agrees.sized, agrees.words, agrees.selected, agrees.clock, agrees.wen, ?_⟩
      refine .data on bits a (k + 2) rfl (outgoing_of (p := p) (q := q + 1) (by omega) (by omega) outgoing.count
        outgoing.reg addr rfl rfl ?_ out)
      have byte : (q + 1) / 8 = q / 8 := by omega
      have shift : (q + 1) % 8 = q % 8 + 1 := by omega
      show e.m_outReg <<< 1 = _
      rw [reg, byte, shift]
      exact BitVec.shiftLeft_add _ _ _ |>.symm

theorem clock_agrees {c : Chip} {e : M93C86} (agrees : Agrees c e) (on : c.selected = true) {b : Bool}
    (pin : e.m_in = bitByte b) : ∃ e', e.clock = some e' ∧ Agrees (c.clocked b) e' := by
  cases agrees.stage with
  | idle off => rw [on] at off; cases off
  | command _ reading incoming =>
    have shifts : e.clock = e.shiftIn := by
      unfold M93C86.clock
      split
      next cmd => exact absurd cmd incoming.taking.1
      next cmd => exact absurd cmd incoming.taking.2
      next => rfl
    rw [shifts]
    exact shiftIn_agrees agrees on reading incoming pin
  | data _ bits a k reading outgoing =>
    have after : c.clocked b = { c with reading := some (a, k + 1) } := by
      unfold Chip.clocked
      rw [reading]
    rw [after]
    cases k with
    | zero => exact first_clock agrees on bits outgoing
    | succ k => exact next_clock agrees on bits outgoing

/-! ## Chip select, reads and the cartridge -/

theorem bitByte_eq_zero {b : Bool} : bitByte b = 0 ↔ b = false := by cases b <;> decide

theorem pin_bit : ∀ k : ℕ, k < 8 → ∀ w : Byte, (w >>> k) &&& 1 = bitByte (w.getLsbD k) := by decide

theorem writeSelect_one (e : M93C86) :
    e.writeSelect 1 = { (if e.m_cs = 0 ∧ e.m_clock = 0 then e.resetInput else e) with m_cs := 1 } := by
  unfold M93C86.writeSelect
  by_cases off : e.m_cs = 0 <;> by_cases low : e.m_clock = 0 <;> simp [off, low, M93C86.resetInput]

theorem writeSelect_zero (e : M93C86) :
    ∃ cmd, e.writeSelect 0 = { e with m_cs := 0, m_cmd := cmd } ∧ Taking cmd := by
  obtain ⟨data, cs, clock, pin, out, reg, count, outReg, outCount, cmd, addr, wen⟩ := e
  unfold M93C86.writeSelect
  dsimp only
  have quiet : ¬(cs = 0 ∧ (0 : Byte) ≠ 0 ∧ clock = 0) := fun all => all.2.1 rfl
  rw [if_neg quiet]
  by_cases busy : cs ≠ 0 ∧ (0 : Byte) = 0 ∧ (cmd = .WRITE ∨ cmd = .WRAL ∨ cmd = .ERAL)
  · rw [if_pos busy]
    exact ⟨.ISBUSY, rfl, by decide, by decide⟩
  · rw [if_neg busy]
    split
    next => exact ⟨.NONE, rfl, by decide, by decide⟩
    next other =>
      exact ⟨cmd, rfl, fun is_ => other ⟨rfl, .inr (.inl is_)⟩, fun is_ => other ⟨rfl, .inr (.inr is_)⟩⟩

/-- A read looks at the output, or goes on from busy to ready. -/
theorem readData_cmd (e : M93C86) : ∃ cmd, e.readData.2 = { e with m_cmd := cmd } ∧
    (cmd = e.m_cmd ∨ ((e.m_cmd = .ISBUSY ∨ e.m_cmd = .ISREADY) ∧ Taking cmd)) := by
  obtain ⟨data, cs, clock, pin, out, reg, count, outReg, outCount, cmd, addr, wen⟩ := e
  unfold M93C86.readData
  dsimp only
  split
  next => exact ⟨cmd, rfl, .inl rfl⟩
  next =>
    split
    next => exact ⟨.ISREADY, rfl, .inr ⟨.inl rfl, by decide, by decide⟩⟩
    next => exact ⟨.NONE, rfl, .inr ⟨.inr rfl, by decide, by decide⟩⟩
    next => exact ⟨cmd, rfl, .inl rfl⟩

/-- While the chip stays selected, its stage is that of these fields. -/
theorem Stage.keep {c c' : Chip} {e e' : M93C86} (stage : Stage c e) (on : c.selected = true) (on' : c'.selected = true)
    (bits : c'.bits = c.bits) (reading : c'.reading = c.reading) (words : c'.words = c.words)
    (data : e'.data = e.data) (count : e'.m_inCount = e.m_inCount) (reg : e'.m_inReg = e.m_inReg)
    (cmd : e'.m_cmd = e.m_cmd) (addr : e'.m_addr = e.m_addr) (outCount : e'.m_outCount = e.m_outCount)
    (outReg : e'.m_outReg = e.m_outReg) (out : e'.m_out = e.m_out) : Stage c' e' := by
  cases stage with
  | idle off => rw [on] at off; cases off
  | command _ none_ incoming =>
    refine .command on' (reading.trans none_) ?_
    rw [bits]
    exact ⟨count.trans incoming.count, reg.trans incoming.reg, incoming.start, cmd ▸ incoming.taking,
      fun long => cmd.trans (incoming.command long), incoming.short⟩
  | data _ empty a k some_ outgoing =>
    refine .data on' (bits.trans empty) a k (reading.trans some_) ?_
    refine ⟨count.trans outgoing.count, reg.trans outgoing.reg, addr.trans outgoing.addr,
      fun zero => cmd.trans (outgoing.first zero), fun j succ => ?_⟩
    obtain ⟨is_cmd, is_count, is_reg, is_out⟩ := outgoing.later j succ
    rw [data, words]
    exact ⟨cmd.trans is_cmd, outCount.trans is_count, outReg.trans is_reg, out.trans is_out⟩

theorem select_agrees {c : Chip} {e : M93C86} (agrees : Agrees c e) :
    Agrees { c with selected := true } (e.writeSelect 1) := by
  rw [writeSelect_one]
  cases agrees.stage with
  | idle off bits reading taking left =>
    have cs : e.m_cs = 0 := by
      rw [agrees.selected, off]
      rfl
    have wen := agrees.wen
    by_cases low : e.m_clock = 0
    · rw [if_pos ⟨cs, low⟩]
      refine ⟨agrees.sized, agrees.words, rfl, agrees.clock, wen, .command rfl reading ?_⟩
      rw [bits]
      exact ⟨rfl, rfl, .inl rfl, taking, fun long => absurd long (by decide), .inl (by decide)⟩
    · rw [if_neg fun both => low both.2]
      have high : c.clock = true := by
        rw [agrees.clock, bitByte_eq_zero] at low
        exact Bool.eq_true_of_not_eq_false low
      refine ⟨agrees.sized, agrees.words, rfl, agrees.clock, wen, .command rfl reading ?_⟩
      rw [bits]
      exact ⟨(left high).1, (left high).2, .inl rfl, taking, fun long => absurd long (by decide), .inl (by decide)⟩
  | command on | data on =>
    have cs : ¬e.m_cs = 0 := by
      rw [agrees.selected, on]
      decide
    rw [if_neg fun both => cs both.1]
    exact ⟨agrees.sized, agrees.words, rfl, agrees.clock, agrees.wen,
      agrees.stage.keep on rfl rfl rfl rfl rfl rfl rfl rfl rfl rfl rfl rfl⟩

theorem deselect_agrees {c : Chip} {e : M93C86} (agrees : Agrees c e) (safe : c.Safe) :
    Agrees c.deselected (e.writeSelect 0) := by
  obtain ⟨cmd, after, taking⟩ := writeSelect_zero e
  have wen : e.m_wen = (c.enabled || ewenBegun []) := by
    rw [agrees.wen]
    cases begun : ewenBegun c.bits with
    | false => rfl
    | true =>
      rw [safe.2 begun]
      rfl
  have left : c.clock = true → e.m_inCount = 0 ∧ e.m_inReg = 0 := by
    intro high
    cases agrees.stage with
    | idle _ _ _ _ left => exact left high
    | command _ _ incoming =>
      have count := incoming.count
      have reg := incoming.reg
      rw [safe.1 high] at count reg
      exact ⟨count, reg⟩
    | data _ _ _ _ _ outgoing => exact ⟨outgoing.count, outgoing.reg⟩
  rw [after]
  exact ⟨agrees.sized, agrees.words, rfl, agrees.clock, wen, .idle rfl rfl rfl taking left⟩

theorem commandOf_busy (bits : List Bool) : commandOf bits ≠ .ISBUSY ∧ commandOf bits ≠ .ISREADY := by
  unfold commandOf
  split <;> exact ⟨by decide, by decide⟩

theorem read_agrees {c : Chip} {e : M93C86} (agrees : Agrees c e) : Agrees c e.readData.2 := by
  obtain ⟨cmd, after, same | ⟨busy, taking⟩⟩ := readData_cmd e
  · rw [after, same]
    exact agrees
  · rw [after]
    refine ⟨agrees.sized, agrees.words, agrees.selected, agrees.clock, agrees.wen, ?_⟩
    cases agrees.stage with
    | idle off bits reading _ left => exact .idle off bits reading taking left
    | command on reading incoming =>
      refine .command on reading ⟨incoming.count, incoming.reg, incoming.start, taking, fun long => ?_,
        incoming.short⟩
      rw [incoming.command long] at busy
      rcases busy with busy | busy
      · exact absurd busy (commandOf_busy _).1
      · exact absurd busy (commandOf_busy _).2
    | data on bits a k reading outgoing =>
      exfalso
      cases k with
      | zero =>
        rw [outgoing.first rfl] at busy
        rcases busy with busy | busy <;> cases busy
      | succ k =>
        rw [(outgoing.later k rfl).1] at busy
        rcases busy with busy | busy <;> cases busy

/-- What a READ has put out is what is read. -/
theorem output_read {c : Chip} {e : M93C86} (agrees : Agrees c e) {b : Bool} (out : c.output = some b) :
    c.selected = true ∧ e.readData.1 = bitByte b := by
  unfold Chip.output at out
  cases agrees.stage with
  | idle _ _ reading => rw [reading] at out; cases out
  | command _ reading => rw [reading] at out; cases out
  | data on _ a k reading outgoing =>
    rw [reading] at out
    cases k with
    | zero => cases out
    | succ k =>
      obtain ⟨cmd, -, -, is_⟩ := outgoing.later k rfl
      have cs : ¬e.m_cs = 0 := by
        rw [agrees.selected, on]
        decide
      unfold M93C86.readData
      rw [if_neg cs, cmd]
      exact ⟨on, is_.trans (congrArg bitByte (Option.some.inj out))⟩

theorem clocked_selected (c : Chip) (b : Bool) : (c.clocked b).selected = c.selected := by
  have obeyed (c : Chip) (command : Command) : (c.obey command).selected = c.selected := by
    unfold Chip.obey
    cases command <;> dsimp only <;> split <;> rfl
  unfold Chip.clocked
  split
  next => rfl
  next =>
    split
    next => rfl
    next =>
      split
      next => exact obeyed _ _
      next => rfl

/-- The data and clock pins of a selected chip. -/
theorem pins_agree {c : Chip} {e : M93C86} (agrees : Agrees c e) (on : c.selected = true) (data clock : Bool) :
    ∃ e', (e.writeData (bitByte data)).writeClock (bitByte clock) = some e' ∧
      Agrees { (if clock && !c.clock then c.clocked data else c) with clock := clock } e' := by
  have cs : e.m_cs ≠ 0 := by
    rw [agrees.selected, on]
    decide
  have pin : bitByte data &&& 1 = bitByte data := by cases data <;> rfl
  have agrees' : Agrees c { e with m_in := bitByte data } := ⟨agrees.sized, agrees.words, agrees.selected,
    agrees.clock, agrees.wen, agrees.stage.keep on on rfl rfl rfl rfl rfl rfl rfl rfl rfl rfl rfl⟩
  have driven {c : Chip} {e : M93C86} (agrees : Agrees c e) (on : c.selected = true) :
      Agrees { c with clock := clock } { e with m_clock := bitByte clock } :=
    ⟨agrees.sized, agrees.words, agrees.selected, rfl, agrees.wen,
      agrees.stage.keep on on rfl rfl rfl rfl rfl rfl rfl rfl rfl rfl rfl⟩
  unfold M93C86.writeData M93C86.writeClock
  rw [if_pos cs, pin]
  dsimp only
  by_cases rises : (clock && !c.clock) = true
  · obtain ⟨high, low⟩ := Bool.and_eq_true_iff.mp rises
    have clock_low : e.m_clock = 0 := by
      rw [agrees.clock, bitByte_eq_zero]
      simpa using low
    have clock_high : bitByte clock ≠ 0 := by
      rw [high]
      decide
    obtain ⟨e', run, after⟩ := clock_agrees agrees' on rfl
    rw [if_pos ⟨cs, clock_high, clock_low⟩, run, if_pos rises]
    exact ⟨_, rfl, driven after ((clocked_selected c data).trans on)⟩
  · have stays : ¬(e.m_cs ≠ 0 ∧ bitByte clock ≠ 0 ∧ e.m_clock = 0) := by
      intro all
      refine rises (Bool.and_eq_true_iff.mpr ⟨?_, ?_⟩)
      · exact Bool.eq_true_of_not_eq_false fun low => all.2.1 (bitByte_eq_zero.mpr low)
      · rw [bitByte_eq_zero.mp (agrees.clock.symm.trans all.2.2)]
        rfl
    rw [if_neg stays, if_neg rises]
    exact ⟨_, rfl, driven agrees' on⟩

/-- The cartridge's chip agrees with the store. -/
structure CartAgrees (c : Chip) (cart : GMod2C128Cart) : Prop where
  chip : Agrees c cart.m_eeprom
  cs : cart.m_cs = bitByte c.selected

theorem write_agrees {c : Chip} {cart : GMod2C128Cart} (agrees : CartAgrees c cart) (w : Byte)
    (framed : Framed c (.write w)) :
    ∃ cart', cartStep cart (.write w) = some cart' ∧ CartAgrees (c.write w) cart' := by
  unfold cartStep GMod2C128Cart.io1 Chip.write
  dsimp only
  rw [pin_bit 6 (by decide) w, pin_bit 4 (by decide) w, pin_bit 5 (by decide) w]
  cases select : w.getLsbD 6 with
  | true =>
    obtain ⟨e', run, after⟩ := pins_agree (select_agrees agrees.chip) rfl (w.getLsbD 4) (w.getLsbD 5)
    rw [show bitByte true = 1 from rfl, if_pos (by decide), run]
    have on : (if w.getLsbD 5 && !c.clock then Chip.clocked { c with selected := true } (w.getLsbD 4)
        else { c with selected := true }).selected = true := by
      split
      next => exact clocked_selected _ _
      next => rfl
    exact ⟨_, rfl, after, (congrArg bitByte on).symm⟩
  | false =>
    refine ⟨_, rfl, deselect_agrees agrees.chip (framed ?_), rfl⟩
    show (!w.getLsbD 6) = true
    rw [select]
    rfl

theorem step_agrees {c : Chip} {cart : GMod2C128Cart} (agrees : CartAgrees c cart) (e : Event) (framed : Framed c e) :
    ∃ cart', cartStep cart e = some cart' ∧ CartAgrees (c.step e) cart' := by
  cases e with
  | write w => exact write_agrees agrees w framed
  | read peek =>
    have read := read_agrees agrees.chip
    unfold cartStep GMod2C128Cart.io1
    dsimp only
    split
    · exact ⟨_, rfl, read, agrees.cs⟩
    · split
      · exact ⟨_, rfl, agrees⟩
      · exact ⟨_, rfl, read, agrees.cs⟩
  | reset => exact ⟨_, rfl, deselect_agrees agrees.chip (framed rfl), rfl⟩

theorem run_agrees {c : Chip} {cart : GMod2C128Cart} (agrees : CartAgrees c cart) {es : List Event}
    (guarded : Guarded Chip.step Framed c es) :
    ∃ cart', es.foldlM cartStep cart = some cart' ∧ CartAgrees (es.foldl Chip.step c) cart' := by
  induction es generalizing c cart with
  | nil => exact ⟨cart, rfl, agrees⟩
  | cons e rest ih =>
    obtain ⟨cart', one, agrees'⟩ := step_agrees agrees e guarded.1
    obtain ⟨cart'', run, agrees''⟩ := ih agrees' guarded.2
    refine ⟨cart'', ?_, agrees''⟩
    rw [List.foldlM_cons, one]
    exact run

/-- A cartridge with a blank EEPROM. -/
def blank (flash : Flash040) : GMod2C128Cart := ⟨flash, .new, 0, 0⟩

theorem blank_agrees (flash : Flash040) : CartAgrees .new (blank flash) := by
  have words : wordAt M93C86.new.data = fun _ => 0xFFFF := by
    funext a
    show (0xFF : Byte) ++ (0xFF : Byte) = (0xFFFF : BitVec (8 + 8))
    decide
  refine ⟨⟨rfl, words, rfl, rfl, rfl, .idle rfl rfl rfl taking_none fun high => ?_⟩, rfl⟩
  cases high

/-- In every run that abandons no EWEN after its fifth bit while writes are disabled and no command
with the clock high, the EEPROM is the store of words: it holds the words, its write-enable is the
store's, and what it puts out for a READ are the bits of the words from its address on. -/
theorem eeprom_words (flash : Flash040) {es : List Event} (guarded : Guarded Chip.step Framed .new es) :
    ∃ cart, es.foldlM cartStep (blank flash) = some cart ∧
      wordAt cart.m_eeprom.data = (es.foldl Chip.step .new).words ∧
      cart.m_eeprom.m_wen = ((es.foldl Chip.step .new).enabled || ewenBegun (es.foldl Chip.step .new).bits) ∧
      ∀ b, (es.foldl Chip.step .new).output = some b → ∀ peek v, ∃ out cart',
        cart.io1 none peek v = some (true, out, cart') ∧ out.getLsbD 7 = b := by
  obtain ⟨cart, run, agrees⟩ := run_agrees (blank_agrees flash) guarded
  refine ⟨cart, run, agrees.chip.words, agrees.chip.wen, fun b out peek v => ?_⟩
  obtain ⟨on, bit⟩ := output_read agrees.chip out
  have cs : ¬cart.m_cs = 0 := by
    rw [agrees.cs, on]
    decide
  unfold GMod2C128Cart.io1
  dsimp only
  split
  · refine ⟨_, _, rfl, ?_⟩
    rw [bit]
    cases b <;> decide
  · refine ⟨_, _, rfl, ?_⟩
    rw [bit]
    cases b <;> decide

/-- The writes to $DE00 that select the chip and clock bits in. -/
def sends (bits : List Bool) : List Event :=
  .write 0x40 :: bits.flatMap fun b => [.write (if b then 0x50 else 0x40), .write (if b then 0x70 else 0x60)]

/-- Deselects the chip, after the clock is low. -/
def release : List Event := [.write 0x40, .write 0]

/-- Writes are enabled, a word is stored and read back as far as its second bit. -/
def storeAndRead : List Event :=
  sends (Command.ewen.bits 0) ++ release ++ sends (Command.bits 0 (.write 3 0x5AA5)) ++ release ++
    sends (Command.bits 0 (.read 3) ++ [false, false])

set_option maxRecDepth 100000 in
theorem eeprom_words_read : Guarded Chip.step Framed .new storeAndRead ∧
    (storeAndRead.foldl Chip.step .new).output = some true ∧
    ∃ cart, storeAndRead.foldlM cartStep (blank .new) = some cart ∧ wordAt cart.m_eeprom.data 3 = 0x5AA5 ∧
      ∃ out cart', cart.io1 none false 0 = some (true, out, cart') ∧ out.getLsbD 7 = true := by
  have guarded : Guarded Chip.step Framed .new storeAndRead := by decide
  have output : (storeAndRead.foldl Chip.step .new).output = some true := by decide
  obtain ⟨cart, run, words, -, reads⟩ := eeprom_words .new guarded
  refine ⟨guarded, output, cart, run, ?_, reads true output false 0⟩
  rw [words]
  decide

/-- An EWEN that is abandoned after its fifth bit. -/
def abandoned : List Event :=
  sends (Command.ewen.bits 0 |>.take 5) ++ release ++ sends (Command.bits 0 (.write 3 0x5AA5))

/-- A command that is abandoned after its start bit, with the clock high, and an EWEN. -/
def leftHigh : List Event := sends [true] ++ [.write 0] ++ sends (Command.ewen.bits 0)

set_option maxRecDepth 100000 in
/-- The abandoned EWEN has enabled writes, and the start bit left over spoils the later EWEN. -/
theorem abandoned_enables :
    ((abandoned.foldlM cartStep (blank .new)).map fun cart => wordAt cart.m_eeprom.data 3) = some 0x5AA5 ∧
    (abandoned.foldl Chip.step .new).words 3 = 0xFFFF ∧
    ((leftHigh.foldlM cartStep (blank .new)).map fun cart => cart.m_eeprom.m_wen) = some false ∧
    (leftHigh.foldl Chip.step .new).enabled = true := by
  decide

end Mmemu.Guarantees.EepromWords
