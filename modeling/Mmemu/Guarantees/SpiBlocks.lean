import Mathlib.Data.List.GetD
import Mmemu.Library.Runs
import Mmemu.Source.SdCardSpi

/-!
# The SPI card as a block store

Commands and data blocks share one stream of bytes. What a host may rely on from the bytes it
has sent is followed beside the card: the block that waits for data, and what every block holds.
The card keeps to it as long as no block read is still open when a write command is answered.
-/
namespace Mmemu.Guarantees.SpiBlocks
open Mmemu.Library.GuardedRun Mmemu.Library.LittleEndian Mmemu.Library.Splice Mmemu.Source

inductive HostEvent where
  | select (on : Bool)
  | byte (in_ : Byte)

def after (s : SdCardSpi) : HostEvent → SdCardSpi
  | .select on => s.select on
  | .byte in_ => (s.handle in_).2

/-! ## What a host may rely on -/

/-- The card that was put in. -/
structure Card where
  file : List Byte
  readOnly : Bool

def Card.size (card : Card) : ℕ := card.file.length % 2 ^ 64

/-- The bytes of the frame or block in progress, the block of the write command that waits for its
data, and what every block holds. -/
structure Host where
  selected : Bool
  sent : List Byte
  acmd : Bool
  pending : Option ℕ
  blocks : ℕ → List Byte

namespace Host

def new (card : Card) : Host where
  selected := false
  sent := []
  acmd := false
  pending := none
  blocks lba := slice card.file (lba * 512) 512

def isFrame (sent : List Byte) : Bool := sent.getD 0 0 &&& 0xC0 == 0x40 && sent.length == 6

def isBlock (sent : List Byte) : Bool := !isFrame sent && sent.length == 515

/-- The code of a command frame; behind CMD55 it is another command. -/
def code (h : Host) (sent : List Byte) : Byte :=
  if h.acmd then sent.getD 0 0 &&& 0x3F ||| 0x80 else sent.getD 0 0 &&& 0x3F

def commanded (card : Card) (h : Host) (sent : List Byte) : Host :=
  let lba := (SdCardSpi.argument sent).toNat
  { h with
    sent := []
    acmd := h.code sent == 55
    pending := if h.code sent = 24 ∧ lba * 512 < card.size then some lba else none }

/-- A data block with its token completes the write that waits; whether another one behind it
writes again is left open. -/
def completed (once : Bool) (card : Card) (h : Host) (sent : List Byte) : Host :=
  let h := { h with sent := [] }
  match h.pending with
  | none => h
  | some lba =>
    if sent.getD 0 0 = 0xFE ∧ !card.readOnly then
      { h with
        blocks := Function.update h.blocks lba (slice sent 1 512)
        pending := if once then none else some lba }
    else h

def next (once : Bool) (card : Card) (h : Host) : HostEvent → Host
  | .select on => { h with selected := on, sent := [] }
  | .byte in_ =>
    if !h.selected || (h.sent == [] && in_ == 0xFF) then h
    else if isFrame (h.sent ++ [in_]) then h.commanded card (h.sent ++ [in_])
    else if isBlock (h.sent ++ [in_]) then h.completed once card (h.sent ++ [in_])
    else { h with sent := h.sent ++ [in_] }

end Host

/-! ## Block answers -/

/-- Data token, block and CRC. -/
def answerOf (d : List Byte) : List Byte := 0xFE :: (d ++ [0xFF, 0xFF])

/-- The answer is a block that holds this; behind it, where the file ends, there may be more. -/
def Shows (r : List Byte) (content : List Byte) : Prop :=
  ∃ d, d.length = 512 ∧ content <+: d ∧ (r = answerOf d ∨ r = 0 :: answerOf d)

theorem set_last_two {l : List Byte} (length : l.length = 514) (a b : Byte) :
    (l.set 512 a).set 513 b = l.take 512 ++ [a, b] := by
  obtain ⟨x, y, last⟩ : ∃ x y, l.drop 512 = [x, y] := by
    apply List.length_eq_two.mp
    rw [List.length_drop, length]
  have before : (l.take 512).length = 512 := by
    rw [List.length_take, length]
    rfl
  conv_lhs => rw [← List.take_append_drop 512 l, last]
  rw [List.set_append_right _ _ before.le, before, List.set_append_right _ _ (by omega), before]
  rfl

theorem loadBlock_inside {s : SdCardSpi} {dest : List Byte} (length : dest.length = 515)
    (inside : s.outOfRange = false) :
    ∃ d, s.loadBlock dest = (answerOf d, 515) ∧ d.length = 512 ∧
      slice (s.m_file.getD []) (s.m_lba.toNat * 512) 512 <+: d := by
  unfold SdCardSpi.loadBlock
  rw [if_neg (by rw [inside]; decide)]
  generalize read_eq : slice (s.m_file.getD []) (s.m_lba.toNat * 512) 512 = read
  have short : read.length ≤ 512 := by
    rw [← read_eq]
    exact List.length_take_le ..
  obtain ⟨x, rest, rfl⟩ : ∃ x rest, dest = x :: rest := List.exists_cons_of_length_eq_add_one length
  have filled : (read ++ rest.drop read.length).length = 514 := by
    rw [List.length_append, List.length_drop]
    simp only [List.length_cons] at length
    omega
  have copied : splice ((x :: rest).set 0 0xFE) 1 read = 0xFE :: (read ++ rest.drop read.length) := by
    simp [splice, Nat.add_comm 1]
  refine ⟨(read ++ rest.drop read.length).take 512, ?_, ?_, ?_⟩
  · dsimp only
    rw [copied, List.set_cons_succ, List.set_cons_succ, set_last_two filled]
    rfl
  · rw [List.length_take, filled]
    rfl
  · exact List.prefix_take_iff.mpr ⟨List.prefix_append .., short⟩

theorem loadBlock_outside {s : SdCardSpi} {dest : List Byte} (outside : s.outOfRange = true) :
    s.loadBlock dest = (dest.set 0 0x08, 1) := by
  unfold SdCardSpi.loadBlock
  rw [if_pos outside]

/-! ## Commands -/

section Commands
variable {s s' : SdCardSpi} {cmd : Byte} {arg : BitVec 32}

/-- The two block buffers. -/
structure Buffers (s : SdCardSpi) : Prop where
  read : s.m_readBlock.length = 516
  next : s.m_nextBlock.length = 515

/-- What no command changes. -/
structure SameCard (s s' : SdCardSpi) : Prop where
  file : s'.m_file = s.m_file
  size : s'.m_size = s.m_size
  readOnly : s'.m_readOnly = s.m_readOnly
  rx : s'.m_rx = s.m_rx
  selected : s'.m_selected = s.m_selected
  lastCmd : s'.m_lastCmd = s.m_lastCmd

/-- A read command of a block that is there is answered with the block, else with an error token. -/
structure ReadAnswer (s : SdCardSpi) : Prop where
  inside : s.outOfRange = false → s.m_respLen = 516 ∧ ∃ d, s.m_resp = some (0 :: answerOf d) ∧
    d.length = 512 ∧ slice (s.m_file.getD []) (s.m_lba.toNat * 512) 512 <+: d
  outside : s.outOfRange = true → s.m_respLen = 2 ∧ ∃ r, s.m_resp = some (0 :: 0x08 :: r)

/-- A command is answered; only reads are with a block, and only block commands set the block. -/
structure Commanded (s s' : SdCardSpi) (cmd : Byte) (arg : BitVec 32) : Prop where
  same : SameCard s s'
  acmd : s'.m_acmd = (s.m_acmd || cmd == 55)
  lba : cmd = 17 ∨ cmd = 18 ∨ cmd = 24 → s'.m_lba = arg
  buffers : Buffers s → Buffers s'
  answer : Buffers s → ∃ r, s'.m_resp = some r ∧ 0 < s'.m_respLen ∧ s'.m_respLen ≤ r.length
  reads : Buffers s → cmd = 17 ∨ cmd = 18 → ReadAnswer s'
  short : cmd ≠ 17 → cmd ≠ 18 → s'.m_respLen < 515

/-- The same card with other flags. -/
theorem commanded_respond {s₁ : SdCardSpi} {r : List Byte} (same : SameCard s s₁)
    (acmd : s₁.m_acmd = (s.m_acmd || cmd == 55)) (lba : cmd = 24 → s₁.m_lba = arg)
    (buffers : s₁.m_readBlock = s.m_readBlock ∧ s₁.m_nextBlock = s.m_nextBlock)
    (length : 0 < r.length ∧ r.length < 515) (other : cmd ≠ 17 ∧ cmd ≠ 18) :
    Commanded s (s₁.respond r) cmd arg where
  same := ⟨same.file, same.size, same.readOnly, same.rx, same.selected, same.lastCmd⟩
  acmd := acmd
  lba block := lba (by tauto)
  buffers h := ⟨buffers.1 ▸ h.read, buffers.2 ▸ h.next⟩
  answer _ := ⟨r, rfl, length.1, le_refl _⟩
  reads _ block := by tauto
  short _ _ := length.2

theorem readAnswer_readCommand (buffers : Buffers s) : ReadAnswer (s.readCommand arg) := by
  have tail : s.m_readBlock.tail.length = 515 := by
    rw [List.length_tail, buffers.read]
  constructor
  · intro inside
    obtain ⟨d, block, length, content⟩ :=
      loadBlock_inside (s := { s with m_lba := arg }) tail inside
    unfold SdCardSpi.readCommand
    simp only [block]
    exact ⟨trivial, d, rfl, length, content⟩
  · intro outside
    have block := @loadBlock_outside { s with m_lba := arg } s.m_readBlock.tail outside
    unfold SdCardSpi.readCommand
    simp only [block]
    refine ⟨trivial, s.m_readBlock.tail.tail, ?_⟩
    cases rest : s.m_readBlock.tail with
    | nil => simp [rest] at tail
    | cons x rest => rfl

theorem length_loadBlock {dest : List Byte} (length : dest.length = 515) :
    (s.loadBlock dest).1.length = 515 := by
  cases range : s.outOfRange with
  | true => rw [loadBlock_outside range, List.length_set, length]
  | false =>
    obtain ⟨d, block, size, -⟩ := loadBlock_inside length range
    rw [block]
    simp [answerOf, size]

theorem ReadAnswer.answer (h : ReadAnswer s) :
    ∃ r, s.m_resp = some r ∧ 0 < s.m_respLen ∧ s.m_respLen ≤ r.length := by
  cases range : s.outOfRange with
  | true =>
    obtain ⟨length, r, resp⟩ := h.outside range
    refine ⟨_, resp, ?_, ?_⟩
    · omega
    · rw [length, List.length_cons, List.length_cons]
      omega
  | false =>
    obtain ⟨length, d, resp, size, -⟩ := h.inside range
    refine ⟨_, resp, ?_, ?_⟩
    · omega
    · simp [length, answerOf, size]

theorem commanded_readCommand {s₁ : SdCardSpi} (same : SameCard s s₁) (acmd : s₁.m_acmd = s.m_acmd)
    (buffers : s₁.m_readBlock = s.m_readBlock ∧ s₁.m_nextBlock = s.m_nextBlock)
    (kind : cmd = 17 ∨ cmd = 18) : Commanded s (s₁.readCommand arg) cmd arg where
  same := ⟨same.file, same.size, same.readOnly, same.rx, same.selected, same.lastCmd⟩
  acmd := by
    have other : (cmd == 55) = false := by rcases kind with rfl | rfl <;> rfl
    rw [other, Bool.or_false, ← acmd]
    rfl
  lba _ := rfl
  buffers h := by
    refine ⟨?_, buffers.2 ▸ h.next⟩
    have tail : s₁.m_readBlock.tail.length = 515 := by
      rw [buffers.1, List.length_tail, h.read]
    exact congrArg (· + 1) (length_loadBlock (s := { s₁ with m_lba := arg }) tail)
  answer h := (readAnswer_readCommand ⟨buffers.1 ▸ h.read, buffers.2 ▸ h.next⟩).answer
  reads h _ := readAnswer_readCommand ⟨buffers.1 ▸ h.read, buffers.2 ▸ h.next⟩
  short no no' := absurd kind (by tauto)

theorem commanded_writeCommand : Commanded s (s.writeCommand arg) 24 arg := by
  have same : SameCard s { s with m_lba := arg } := ⟨rfl, rfl, rfl, rfl, rfl, rfl⟩
  have flag : s.m_acmd = (s.m_acmd || (24 : Byte) == 55) := (Bool.or_false _).symm
  unfold SdCardSpi.writeCommand
  dsimp only
  split
  · exact commanded_respond same flag (fun _ => rfl) ⟨rfl, rfl⟩ (by decide) (by decide)
  · exact commanded_respond same flag (fun _ => rfl) ⟨rfl, rfl⟩ ⟨Nat.one_pos, by simp⟩ (by decide)

/-- Most commands change no more than flags. -/
theorem commanded_flags {s₁ : SdCardSpi} {r : List Byte} {n : ℕ} (code : cmd.toNat = n)
    (same : SameCard s s₁) (acmd : s₁.m_acmd = (s.m_acmd || n == 55))
    (buffers : s₁.m_readBlock = s.m_readBlock ∧ s₁.m_nextBlock = s.m_nextBlock)
    (length : 0 < r.length ∧ r.length < 515) (other : n ≠ 17 ∧ n ≠ 18 ∧ n ≠ 24) :
    Commanded s (s₁.respond r) cmd arg := by
  have not_code : ∀ k : Byte, n ≠ k.toNat → cmd ≠ k := by
    rintro k differ rfl
    exact differ code.symm
  refine commanded_respond same ?_ (fun block => absurd block (not_code 24 other.2.2)) buffers length
    ⟨not_code 17 other.1, not_code 18 other.2.1⟩
  rw [acmd, ← code]
  congr 1
  rw [Bool.eq_iff_iff, beq_iff_eq, beq_iff_eq]
  exact BitVec.toNat_inj (y := 55)

theorem commanded_command (s : SdCardSpi) (cmd : Byte) (arg : BitVec 32) :
    Commanded s (s.command cmd arg) cmd arg := by
  have same : SameCard s s := ⟨rfl, rfl, rfl, rfl, rfl, rfl⟩
  have no_flag : s.m_acmd = (s.m_acmd || false) := (Bool.or_false _).symm
  have flag : true = (s.m_acmd || true) := (Bool.or_true _).symm
  have one : ∀ b : Byte, 0 < [b].length ∧ [b].length < 515 := fun _ => by simp
  have code : ∀ k : Byte, cmd.toNat = k.toNat → cmd = k := fun _ => BitVec.eq_of_toNat_eq
  unfold SdCardSpi.command
  split
  next is => exact commanded_flags is ⟨rfl, rfl, rfl, rfl, rfl, rfl⟩ no_flag ⟨rfl, rfl⟩ (one _) (by decide)
  next is => exact commanded_flags is same no_flag ⟨rfl, rfl⟩ (by decide) (by decide)
  next is => exact commanded_flags is same no_flag ⟨rfl, rfl⟩ (by simp [SdCard.base]) (by decide)
  next is => exact commanded_flags is ⟨rfl, rfl, rfl, rfl, rfl, rfl⟩ no_flag ⟨rfl, rfl⟩ (one _) (by decide)
  next is => exact commanded_flags is ⟨rfl, rfl, rfl, rfl, rfl, rfl⟩ no_flag ⟨rfl, rfl⟩ (one _) (by decide)
  next is =>
    refine commanded_flags is same no_flag ⟨rfl, rfl⟩ ?_ (by decide)
    cases s.m_initialized <;> decide
  next is =>
    exact commanded_readCommand ⟨rfl, rfl, rfl, rfl, rfl, rfl⟩ rfl ⟨rfl, rfl⟩ (.inr (code 18 is))
  next is => exact commanded_readCommand same rfl ⟨rfl, rfl⟩ (.inl (code 17 is))
  next is =>
    rw [code 24 is]
    exact commanded_writeCommand
  next is => exact commanded_flags is ⟨rfl, rfl, rfl, rfl, rfl, rfl⟩ flag ⟨rfl, rfl⟩ (one _) (by decide)
  next is => exact commanded_flags is same no_flag ⟨rfl, rfl⟩ (by decide) (by decide)
  next _ _ _ _ _ _ not18 not17 not24 not55 _ =>
    refine commanded_flags rfl same ?_ ⟨rfl, rfl⟩ (one _) ⟨not17, not18, not24⟩
    rw [beq_false_of_ne not55]
    exact no_flag

end Commands

/-! ## The place in an answer -/

section Answers
variable {s : SdCardSpi}

/-- The next byte of an answer is inside, and so is its end. -/
def Inside (s : SdCardSpi) : Prop :=
  ∀ r, s.m_resp = some r → s.m_respPos < s.m_respLen ∧ s.m_respLen ≤ r.length

theorem length_loaded {dest : List Byte} (length : dest.length = 515) :
    0 < (s.loadBlock dest).2 ∧ (s.loadBlock dest).2 ≤ (s.loadBlock dest).1.length := by
  rw [length_loadBlock length]
  cases range : s.outOfRange with
  | true =>
    rw [loadBlock_outside range]
    simp
  | false =>
    obtain ⟨d, inside, -⟩ := loadBlock_inside length range
    rw [inside]
    simp

theorem steady_answered (b : Buffers s) : Buffers s.answered ∧ Inside s.answered := by
  unfold SdCardSpi.answered
  split
  · refine ⟨⟨b.read, length_loadBlock b.next⟩, ?_⟩
    rintro r ⟨⟩
    exact length_loaded b.next
  · exact ⟨⟨b.read, b.next⟩, nofun⟩

theorem steady_idle (b : Buffers s) (i : Inside s) : Buffers s.idle.2 ∧ Inside s.idle.2 := by
  unfold SdCardSpi.idle
  split
  next => exact ⟨b, i⟩
  next r answer =>
    dsimp only
    split
    next last => exact steady_answered ⟨b.read, b.next⟩
    next more =>
      refine ⟨⟨b.read, b.next⟩, fun r' same => ?_⟩
      obtain ⟨before, inside⟩ := i r' same
      exact ⟨by dsimp only at more ⊢; omega, inside⟩

theorem steady_frame (b : Buffers s) (rx : List Byte) : Buffers (s.frame rx) ∧ Inside (s.frame rx) := by
  unfold SdCardSpi.frame
  dsimp only
  generalize (if s.m_acmd then rx.getD 0 0 &&& 0x3F ||| 0x80 else rx.getD 0 0 &&& 0x3F) = cmd
  have done := commanded_command { s with m_rx := [], m_acmd := false, m_lastCmd := cmd } cmd
    (SdCardSpi.argument rx)
  have buffers := done.buffers ⟨b.read, b.next⟩
  refine ⟨⟨buffers.read, buffers.next⟩, fun r answer => ?_⟩
  obtain ⟨r', answer', some_, inside⟩ := done.answer ⟨b.read, b.next⟩
  obtain rfl : r' = r := Option.some.inj (answer'.symm.trans answer)
  exact ⟨some_, inside⟩

theorem steady_dataBlock (b : Buffers s) (i : Inside s) (rx : List Byte) :
    Buffers (s.dataBlock rx) ∧ Inside (s.dataBlock rx) := by
  unfold SdCardSpi.dataBlock
  dsimp only
  split
  · exact ⟨⟨b.read, b.next⟩, i⟩
  · exact ⟨⟨b.read, b.next⟩, i⟩

theorem steady_after (b : Buffers s) (i : Inside s) (e : HostEvent) :
    Buffers (after s e) ∧ Inside (after s e) := by
  cases e with
  | select on => exact ⟨⟨b.read, b.next⟩, i⟩
  | byte in_ =>
    unfold after SdCardSpi.handle
    dsimp only
    split
    · exact ⟨b, i⟩
    · split
      · exact steady_idle b i
      · split
        · exact steady_frame b _
        · split
          · exact steady_dataBlock b i _
          · exact ⟨⟨b.read, b.next⟩, i⟩

end Answers

/-! ## Keeping to it -/

/-- What the host relies on is so. -/
structure Tracks (once : Bool) (card : Card) (s : SdCardSpi) (h : Host) : Prop where
  size : s.m_size.toNat = card.size
  readOnly : s.m_readOnly = card.readOnly
  file : ∃ data, s.m_file = some data ∧ card.size ≤ data.length ∧
    ∀ lba, lba * 512 < card.size → slice data (lba * 512) 512 = h.blocks lba
  selected : h.selected = s.m_selected
  sent : h.sent = s.m_rx
  acmd : h.acmd = s.m_acmd
  pending : ∀ lba, h.pending = some lba →
    s.m_lastCmd = 24 ∧ s.m_lba.toNat = lba ∧ lba * 512 < card.size
  waits : s.m_lastCmd = 24 → s.outOfRange = false → h.pending = some s.m_lba.toNat ∨ once = true
  shows : ∀ r, s.m_resp = some r → 515 ≤ s.m_respLen →
    s.m_lastCmd ≠ 24 ∧ s.m_respLen = r.length ∧ Shows r (h.blocks s.m_lba.toNat)

/-- The last byte of a write command's answer is taken while a read of many blocks is open. -/
def Advances (s : SdCardSpi) : HostEvent → Prop
  | .select _ => False
  | .byte in_ => s.m_selected = true ∧ s.m_rx = [] ∧ in_ = 0xFF ∧ s.m_resp.isSome ∧
      s.m_respPos + 1 = s.m_respLen ∧ s.m_multiRead = true ∧ s.m_lastCmd = 24

/-- A data block is complete, and the write command before it has had its data. -/
def Repeats (card : Card) (s : SdCardSpi) (h : Host) : HostEvent → Prop
  | .select _ => False
  | .byte in_ => s.m_selected = true ∧ Host.isBlock (s.m_rx ++ [in_]) = true ∧
      (s.m_rx ++ [in_]).getD 0 0 = 0xFE ∧ s.m_lastCmd = 24 ∧ card.readOnly = false ∧
      s.outOfRange = false ∧ h.pending = none

def Clean (once : Bool) (card : Card) (c : SdCardSpi × Host) (e : HostEvent) : Prop :=
  ¬Advances c.1 e ∧ (once = true → ¬Repeats card c.1 c.2 e)

section Step
variable {once : Bool} {card : Card} {s : SdCardSpi} {h : Host}

theorem outOfRange_iff (t : Tracks once card s h) (lba : BitVec 32) :
    { s with m_lba := lba }.outOfRange = false ↔ lba.toNat * 512 < card.size := by
  rw [← t.size]
  simp [SdCardSpi.outOfRange]

theorem tracks_select (t : Tracks once card s h) (on : Bool) :
    Tracks once card (s.select on) { h with selected := on, sent := [] } :=
  ⟨t.size, t.readOnly, t.file, rfl, rfl, t.acmd, t.pending, t.waits, t.shows⟩

theorem tracks_collect (t : Tracks once card s h) (rx : List Byte) :
    Tracks once card { s with m_rx := rx } { h with sent := rx } :=
  ⟨t.size, t.readOnly, t.file, t.selected, rfl, t.acmd, t.pending, t.waits, t.shows⟩

theorem file_block (t : Tracks once card s h) {lba : BitVec 32} (inside : lba.toNat * 512 < card.size) :
    slice (s.m_file.getD []) (lba.toNat * 512) 512 = h.blocks lba.toNat := by
  obtain ⟨data, file, -, blocks⟩ := t.file
  rw [file]
  exact blocks lba.toNat inside

/-- What is loaded is a block as the host knows it, or too short to be one. -/
theorem loaded_block (t : Tracks once card s h) {dest : List Byte} (length : dest.length = 515)
    (lba : BitVec 32) (whole : 515 ≤ ({ s with m_lba := lba }.loadBlock dest).2) :
    ({ s with m_lba := lba }.loadBlock dest).2 = ({ s with m_lba := lba }.loadBlock dest).1.length ∧
      Shows ({ s with m_lba := lba }.loadBlock dest).1 (h.blocks lba.toNat) := by
  cases range : { s with m_lba := lba }.outOfRange with
  | true =>
    rw [loadBlock_outside range] at whole
    simp at whole
  | false =>
    obtain ⟨d, inside, size, content⟩ := loadBlock_inside length range
    have blocks := file_block t ((outOfRange_iff t lba).mp range)
    rw [inside]
    exact ⟨by simp [answerOf, size], d, size, blocks ▸ content, .inl rfl⟩

/-- The next block of a read of many. -/
theorem tracks_answered (t : Tracks once card s h) (b : Buffers s)
    (other : s.m_multiRead = true → s.m_lastCmd ≠ 24) : Tracks once card s.answered h := by
  unfold SdCardSpi.answered
  by_cases multi : s.m_multiRead = true
  · rw [if_pos multi]
    have no_pending : ∀ lba, h.pending ≠ some lba :=
      fun lba waits => other multi (t.pending lba waits).1
    refine ⟨t.size, t.readOnly, t.file, t.selected, t.sent, t.acmd,
      fun lba waits => absurd waits (no_pending lba), fun last => absurd last (other multi), ?_⟩
    rintro r ⟨⟩ whole
    exact ⟨other multi, loaded_block t b.next _ whole⟩
  · rw [if_neg multi]
    exact ⟨t.size, t.readOnly, t.file, t.selected, t.sent, t.acmd, t.pending, t.waits, nofun⟩

theorem tracks_idle (t : Tracks once card s h) (b : Buffers s)
    (other : s.m_resp.isSome → s.m_respPos + 1 = s.m_respLen → s.m_multiRead = true →
      s.m_lastCmd ≠ 24) : Tracks once card s.idle.2 h := by
  unfold SdCardSpi.idle
  split
  next => exact t
  next r answer =>
    have taken : Tracks once card { s with m_respPos := s.m_respPos + 1 } h :=
      ⟨t.size, t.readOnly, t.file, t.selected, t.sent, t.acmd, t.pending, t.waits, t.shows⟩
    dsimp only
    split
    next last => exact tracks_answered taken ⟨b.read, b.next⟩ (other (by rw [answer]; rfl) last)
    next => exact taken

/-- A command starts the answer anew. -/
theorem tracks_command (t : Tracks once card s h) (b : Buffers s) {s' : SdCardSpi} {cmd : Byte}
    {arg : BitVec 32}
    (done : Commanded { s with m_rx := [], m_acmd := false, m_lastCmd := cmd } s' cmd arg) :
    Tracks once card { s' with m_respPos := 0 }
      { h with
        sent := []
        acmd := cmd == 55
        pending := if cmd = 24 ∧ arg.toNat * 512 < card.size then some arg.toNat else none } := by
  have same := done.same
  have size : s'.m_size.toNat = card.size := by
    rw [same.size]
    exact t.size
  have range : s'.outOfRange = false ↔ s'.m_lba.toNat * 512 < card.size := by
    rw [← size]
    simp [SdCardSpi.outOfRange]
  refine ⟨size, same.readOnly.trans t.readOnly, ?_, t.selected.trans same.selected.symm,
    same.rx.symm, ?_, ?_, ?_, ?_⟩
  · rw [same.file]
    exact t.file
  · rw [done.acmd]
    exact (Bool.false_or _).symm
  · intro lba waits
    simp only [Option.ite_none_right_eq_some, Option.some.injEq] at waits
    obtain ⟨⟨write, inside⟩, rfl⟩ := waits
    exact ⟨same.lastCmd.trans write, by rw [done.lba (.inr (.inr write))], inside⟩
  · intro last inside
    have write : cmd = 24 := same.lastCmd.symm.trans last
    have lba := done.lba (.inr (.inr write))
    have inside' := range.mp inside
    rw [lba] at inside'
    simp only [write, inside', lba]
    exact .inl rfl
  · intro r answer whole
    have kind : cmd = 17 ∨ cmd = 18 := by
      by_contra other
      have short := done.short (by tauto) (by tauto)
      dsimp only at whole
      omega
    have reads := done.reads ⟨b.read, b.next⟩ kind
    have other : cmd ≠ 24 := by rcases kind with rfl | rfl <;> decide
    cases range_eq : s'.outOfRange with
    | true =>
      have short := (reads.outside range_eq).1
      dsimp only at whole
      omega
    | false =>
      obtain ⟨length, d, shown, size_d, content⟩ := reads.inside range_eq
      obtain rfl : 0 :: answerOf d = r := Option.some.inj (shown.symm.trans answer)
      have inside := range.mp range_eq
      rw [same.file, file_block t inside] at content
      refine ⟨fun last => other (same.lastCmd.symm.trans last), ?_, d, size_d, content, .inr rfl⟩
      simp [length, answerOf, size_d]

theorem tracks_frame (t : Tracks once card s h) (b : Buffers s) (rx : List Byte) :
    Tracks once card (s.frame rx) (h.commanded card rx) := by
  have code : (if s.m_acmd then rx.getD 0 0 &&& 0x3F ||| 0x80 else rx.getD 0 0 &&& 0x3F) = h.code rx := by
    rw [Host.code, t.acmd]
  unfold SdCardSpi.frame
  dsimp only
  rw [code]
  exact tracks_command t b (commanded_command ..)

/-- The card takes this data block. -/
structure Takes (s : SdCardSpi) (rx : List Byte) : Prop where
  last : s.m_lastCmd = 24
  token : rx.getD 0 0 = 0xFE
  writable : s.m_readOnly = false
  inside : s.outOfRange = false

theorem dataBlock_of_takes {rx : List Byte} (takes : Takes s rx) :
    s.dataBlock rx = { s with
      m_rx := []
      m_file := s.m_file.map fun file => splice file (s.m_lba.toNat * 512) (slice rx 1 512) } := by
  have inside : { s with m_rx := [] }.outOfRange = false := takes.inside
  unfold SdCardSpi.dataBlock
  dsimp only
  rw [if_pos]
  exact ⟨takes.last, takes.token, by rw [takes.writable]; rfl, by rw [inside]; rfl⟩

theorem dataBlock_of_not_takes {rx : List Byte} (refuses : ¬Takes s rx) :
    s.dataBlock rx = { s with m_rx := [] } := by
  unfold SdCardSpi.dataBlock
  dsimp only
  rw [if_neg]
  rintro ⟨last, token, writable, inside⟩
  exact refuses ⟨last, token, by simpa using writable, by rw [Bool.not_eq_true'] at inside; exact inside⟩

/-- A data block goes to the block the host expects. -/
theorem tracks_taken (t : Tracks once card s h) {rx : List Byte} (length : rx.length = 515)
    (takes : Takes s rx) (waits : h.pending = some s.m_lba.toNat) :
    Tracks once card (s.dataBlock rx) (h.completed once card rx) := by
  have writable : card.readOnly = false := t.readOnly.symm.trans takes.writable
  have completed : h.completed once card rx = { h with
      sent := []
      blocks := Function.update h.blocks s.m_lba.toNat (slice rx 1 512)
      pending := if once then none else some s.m_lba.toNat } := by
    unfold Host.completed
    rw [waits]
    dsimp only
    rw [if_pos ⟨takes.token, by rw [writable]; rfl⟩]
  rw [dataBlock_of_takes takes, completed]
  have inside := (t.pending _ waits).2.2
  obtain ⟨data, file, whole, blocks⟩ := t.file
  have start : s.m_lba.toNat * 512 ≤ data.length := by omega
  have size : (slice rx 1 512).length = 512 := length_slice (by omega)
  refine ⟨t.size, t.readOnly, ?_, t.selected, rfl, t.acmd, ?_, ?_,
    fun r answer long => absurd takes.last (t.shows r answer long).1⟩
  · refine ⟨splice data (s.m_lba.toNat * 512) (slice rx 1 512), by rw [file]; rfl,
      whole.trans (length_le_splice start), ?_⟩
    intro lba inside'
    dsimp only
    by_cases here : lba = s.m_lba.toNat
    · rw [here, Function.update_self]
      have back := @slice_splice_of_le _ data (slice rx 1 512) _ start
      rwa [size] at back
    · rw [Function.update_of_ne here, slice_splice_apart_of_le start (by rw [size]; omega)]
      exact blocks lba inside'
  · intro lba waits'
    cases once with
    | true => cases waits'
    | false => exact t.pending lba (waits.trans waits')
  · intro _ _
    cases once with
    | true => exact .inr rfl
    | false => exact .inl rfl

/-- A data block that the card does not take is none that the host expects. -/
theorem tracks_not_taken (t : Tracks once card s h) {rx : List Byte} (refuses : ¬Takes s rx) :
    Tracks once card (s.dataBlock rx) (h.completed once card rx) := by
  have completed : h.completed once card rx = { h with sent := [] } := by
    unfold Host.completed
    cases waits : h.pending with
    | none => simp
    | some lba =>
      obtain ⟨last, rfl, inside⟩ := t.pending lba waits
      have range : s.outOfRange = false := (outOfRange_iff t s.m_lba).mpr inside
      dsimp only
      rw [if_neg]
      rintro ⟨token, writable⟩
      refine refuses ⟨last, token, ?_, range⟩
      rw [t.readOnly]
      simpa using writable
  rw [dataBlock_of_not_takes refuses, completed]
  exact tracks_collect t []

theorem tracks_dataBlock (t : Tracks once card s h) {rx : List Byte} (length : rx.length = 515)
    (fresh : once = true → Takes s rx → h.pending ≠ none) :
    Tracks once card (s.dataBlock rx) (h.completed once card rx) := by
  by_cases takes : Takes s rx
  · refine tracks_taken t length takes ?_
    rcases t.waits takes.last takes.inside with waits | again
    · exact waits
    · obtain ⟨lba, pending⟩ := Option.ne_none_iff_exists'.mp (fresh again takes)
      rw [pending, (t.pending lba pending).2.1]
  · exact tracks_not_taken t takes

theorem isFrame_iff (rx : List Byte) :
    Host.isFrame rx = true ↔ rx.getD 0 0 &&& 0xC0 = 0x40 ∧ rx.length = 6 := by
  simp [Host.isFrame]

theorem tracks_byte (t : Tracks once card s h) (b : Buffers s) {in_ : Byte}
    (clean : Clean once card (s, h) (.byte in_)) (selected : s.m_selected = true) :
    Tracks once card (s.handle in_).2 (h.next once card (.byte in_)) := by
  obtain ⟨file, held, -⟩ := t.file
  have here : ¬(!s.m_selected || s.m_file.isNone) = true := by
    rw [selected, held]
    exact Bool.false_ne_true
  unfold SdCardSpi.handle Host.next
  rw [if_neg here, t.selected, t.sent]
  dsimp only
  by_cases idle : s.m_rx = [] ∧ in_ = 0xFF
  · rw [if_pos idle, if_pos (by simp [idle])]
    refine tracks_idle t b fun answer last multi write => clean.1 ?_
    exact ⟨selected, idle.1, idle.2, answer, last, multi, write⟩
  · have busy : ¬(!s.m_selected || (s.m_rx == [] && in_ == 0xFF)) = true := by
      simpa [selected] using idle
    rw [if_neg idle, if_neg busy]
    by_cases frame : Host.isFrame (s.m_rx ++ [in_]) = true
    · rw [if_pos frame, if_pos ((isFrame_iff _).mp frame)]
      exact tracks_frame t b _
    · rw [if_neg frame, if_neg fun here => frame ((isFrame_iff _).mpr here)]
      by_cases whole : (s.m_rx ++ [in_]).length = 515
      · have block : Host.isBlock (s.m_rx ++ [in_]) = true := by
          simp only [Host.isBlock, whole]
          simpa using frame
        rw [if_pos block, if_pos whole]
        refine tracks_dataBlock t whole fun again takes none_ => clean.2 again ?_
        exact ⟨selected, block, takes.token, takes.last, t.readOnly.symm.trans takes.writable,
          takes.inside, none_⟩
      · have block : ¬Host.isBlock (s.m_rx ++ [in_]) = true := by
          simp only [Host.isBlock, Bool.and_eq_true, beq_iff_eq]
          exact fun both => whole both.2
        rw [if_neg block, if_neg whole]
        have collected := tracks_collect t (s.m_rx ++ [in_])
        rw [t.selected] at collected
        exact collected

theorem tracks_after {e : HostEvent} (t : Tracks once card s h) (b : Buffers s)
    (clean : Clean once card (s, h) e) :
    Tracks once card (after s e) (h.next once card e) := by
  cases e with
  | select on => exact tracks_select t on
  | byte in_ =>
    by_cases selected : s.m_selected = true
    · exact tracks_byte t b clean selected
    · have deaf : s.handle in_ = (0xFF, s) := by
        unfold SdCardSpi.handle
        simp [selected]
      have ignored : h.next once card (.byte in_) = h := by
        unfold Host.next
        simp [t.selected, selected]
      change Tracks once card (s.handle in_).2 _
      rw [deaf, ignored]
      exact t

end Step

/-! ## Reading -/

/-- Bytes exchanged one after the other: what the card sends, and the card behind them. -/
def exchange : SdCardSpi → List Byte → List Byte × SdCardSpi
  | s, [] => ([], s)
  | s, b :: rest =>
    ((s.handle b).1 :: (exchange (s.handle b).2 rest).1, (exchange (s.handle b).2 rest).2)

theorem exchange_append (s : SdCardSpi) (bs cs : List Byte) :
    exchange s (bs ++ cs) =
      ((exchange s bs).1 ++ (exchange (exchange s bs).2 cs).1, (exchange (exchange s bs).2 cs).2) := by
  induction bs generalizing s with
  | nil => rfl
  | cons b rest ih => simp only [List.cons_append, exchange, ih]

section Reading
variable {s : SdCardSpi} {blocks : ℕ → List Byte} {r : List Byte} {lba : BitVec 32}

/-- A card that is selected, between frames. -/
structure Listening (s : SdCardSpi) : Prop where
  selected : s.m_selected = true
  file : s.m_file.isNone = false
  rx : s.m_rx = []

theorem handle_idle (l : Listening s) : s.handle 0xFF = s.idle := by
  unfold SdCardSpi.handle
  simp [l.selected, l.file, l.rx]

theorem slice_succ {pos n : ℕ} (inside : pos < r.length) :
    slice r pos (n + 1) = r.getD pos 0 :: slice r (pos + 1) n := by
  unfold slice
  rw [List.drop_eq_getElem_cons inside, List.take_succ_cons, List.getD_eq_getElem _ _ inside]

/-- Idle bytes take the rest of an answer. -/
theorem exchange_rest {n : ℕ} (l : Listening s) (answer : s.m_resp = some r)
    (rest : s.m_respPos + n + 1 = s.m_respLen) (inside : s.m_respLen ≤ r.length) :
    exchange s (List.replicate (n + 1) 0xFF) =
      (slice r s.m_respPos (n + 1), { s with m_respPos := s.m_respLen }.answered) := by
  induction n generalizing s with
  | zero =>
    have last : s.m_respPos + 1 = s.m_respLen := rest
    have out : s.idle = (r.getD s.m_respPos 0, { s with m_respPos := s.m_respLen }.answered) := by
      unfold SdCardSpi.idle
      simp only [answer, last, if_true]
    rw [List.replicate_one, exchange, exchange, handle_idle l, out, slice_succ (by omega)]
    rfl
  | succ n ih =>
    have out : s.idle = (r.getD s.m_respPos 0, { s with m_respPos := s.m_respPos + 1 }) := by
      unfold SdCardSpi.idle
      simp only [answer]
      rw [if_neg (by omega)]
    have later := ih (s := { s with m_respPos := s.m_respPos + 1 }) ⟨l.selected, l.file, l.rx⟩ answer
      (by dsimp only; omega) inside
    rw [List.replicate_succ, exchange, handle_idle l, out, slice_succ (by omega)]
    dsimp only
    rw [later]

/-- A block is about to be sent, of a card that holds these blocks. -/
structure Reading (s : SdCardSpi) (blocks : ℕ → List Byte) (r : List Byte) (lba : BitVec 32) : Prop where
  listening : Listening s
  answer : s.m_resp = some r
  start : s.m_respPos = 0
  length : s.m_respLen = r.length
  some_ : r ≠ []
  lba : s.m_lba = lba
  next : s.m_nextBlock.length = 515
  content : ∀ lba : BitVec 32, lba.toNat * 512 < s.m_size.toNat →
    slice (s.m_file.getD []) (lba.toNat * 512) 512 = blocks lba.toNat

/-- The data of a block: what it holds, and where the file ends there may be more. -/
def DataOf (blocks : ℕ → List Byte) (lba : ℕ) (d : List Byte) : Prop :=
  d.length = 512 ∧ blocks lba <+: d

theorem Reading.first (h : Reading s blocks r lba) :
    exchange s (List.replicate r.length 0xFF) =
      (r, { s with m_respPos := s.m_respLen }.answered) := by
  obtain ⟨n, length⟩ : ∃ n, r.length = n + 1 :=
    Nat.exists_eq_succ_of_ne_zero fun none_ => h.some_ (List.length_eq_zero_iff.mp none_)
  have rest := exchange_rest (n := n) h.listening h.answer
    (by rw [h.start, h.length, length, Nat.zero_add]) h.length.le
  rw [length, rest, h.start, ← length]
  simp [slice]

theorem toNat_next {lba : BitVec 32} (small : lba.toNat + 1 < 2 ^ 32) :
    (lba + 1).toNat = lba.toNat + 1 := by
  change (lba.toNat + 1) % 2 ^ 32 = lba.toNat + 1
  exact Nat.mod_eq_of_lt small

theorem Reading.behind (h : Reading s blocks r lba) (multi : s.m_multiRead = true)
    (small : lba.toNat + 1 < 2 ^ 32) (range : (lba.toNat + 1) * 512 < s.m_size.toNat) :
    ∃ d, DataOf blocks (lba.toNat + 1) d ∧
      Reading { s with m_respPos := s.m_respLen }.answered blocks (answerOf d) (lba + 1) ∧
      { s with m_respPos := s.m_respLen }.answered.m_multiRead = true ∧
      { s with m_respPos := s.m_respLen }.answered.m_size = s.m_size := by
  have next := toNat_next small
  have inside : { s with m_respPos := s.m_respLen, m_lba := s.m_lba + 1 }.outOfRange = false := by
    simp only [SdCardSpi.outOfRange, h.lba, next, decide_eq_false_iff_not, Nat.not_le]
    exact range
  obtain ⟨d, block, length, content⟩ := loadBlock_inside h.next inside
  have same := h.content (lba + 1) (by rw [next]; exact range)
  have there : slice (s.m_file.getD []) ((s.m_lba + 1).toNat * 512) 512 <+: d := content
  rw [h.lba, same, next] at there
  unfold SdCardSpi.answered
  rw [if_pos multi]
  dsimp only
  rw [block]
  refine ⟨d, ⟨length, there⟩, ?_, rfl, rfl⟩
  refine ⟨⟨h.listening.selected, h.listening.file, h.listening.rx⟩, rfl, rfl, ?_, List.cons_ne_nil _ _,
    congrArg (· + 1) h.lba, ?_, h.content⟩
  · simp [answerOf, length]
  · simp [answerOf, length]

theorem exchange_blocks (h : Reading s blocks r lba) (n : ℕ) (multi : 0 < n → s.m_multiRead = true)
    (small : lba.toNat + n < 2 ^ 32) (range : 0 < n → (lba.toNat + n) * 512 < s.m_size.toNat) :
    ∃ ds, List.Forall₂ (DataOf blocks) (List.range' (lba.toNat + 1) n) ds ∧
      (exchange s (List.replicate (r.length + 515 * n) 0xFF)).1 = r ++ ds.flatMap answerOf := by
  induction n generalizing s r lba with
  | zero =>
    refine ⟨[], .nil, ?_⟩
    rw [Nat.mul_zero, Nat.add_zero, h.first]
    simp
  | succ n ih =>
    have last := range (Nat.succ_pos n)
    have small' : lba.toNat + 1 < 2 ^ 32 := by omega
    have next := toNat_next small'
    have near : (lba.toNat + 1) * 512 < s.m_size.toNat :=
      (Nat.mul_le_mul_right 512 (by omega)).trans_lt last
    obtain ⟨d, data, reading, multi', size⟩ := h.behind (multi (Nat.succ_pos n)) small' near
    have length : (answerOf d).length = 515 := by simp [answerOf, data.1]
    have far : 0 < n → ((lba + 1).toNat + n) * 512 <
        { s with m_respPos := s.m_respLen }.answered.m_size.toNat := by
      intro _
      rw [size, next, Nat.add_assoc, Nat.add_comm 1]
      exact last
    obtain ⟨ds, all, out⟩ := ih reading (fun _ => multi') (by rw [next]; omega) far
    rw [next] at all
    rw [length] at out
    refine ⟨d :: ds, .cons data all, ?_⟩
    have split : r.length + 515 * (n + 1) = r.length + (515 + 515 * n) := by omega
    rw [split, List.replicate_add, exchange_append, h.first]
    dsimp only
    rw [out, List.flatMap_cons]

theorem handle_collects (selected : s.m_selected = true) (file : s.m_file.isNone = false) {in_ : Byte}
    (busy : ¬(s.m_rx = [] ∧ in_ = 0xFF)) (short : (s.m_rx ++ [in_]).length < 6) :
    s.handle in_ = (0xFF, { s with m_rx := s.m_rx ++ [in_] }) := by
  have here : ¬(!s.m_selected || s.m_file.isNone) = true := by
    rw [selected, file]
    decide
  unfold SdCardSpi.handle
  dsimp only
  rw [if_neg here, if_neg busy, if_neg fun frame => absurd frame.2 (by omega), if_neg (by omega)]

theorem handle_frame (selected : s.m_selected = true) (file : s.m_file.isNone = false) {in_ : Byte}
    (busy : s.m_rx ≠ []) (frame : Host.isFrame (s.m_rx ++ [in_]) = true) :
    s.handle in_ = (0xFF, s.frame (s.m_rx ++ [in_])) := by
  have here : ¬(!s.m_selected || s.m_file.isNone) = true := by
    rw [selected, file]
    decide
  unfold SdCardSpi.handle
  dsimp only
  rw [if_neg here, if_neg fun idle => busy idle.1, if_pos ((isFrame_iff _).mp frame)]

theorem exchange_collects (selected : s.m_selected = true) (file : s.m_file.isNone = false)
    {bs : List Byte} (begun : s.m_rx ≠ []) (short : s.m_rx.length + bs.length < 6) :
    exchange s bs = (List.replicate bs.length 0xFF, { s with m_rx := s.m_rx ++ bs }) := by
  induction bs generalizing s with
  | nil => simp [exchange]
  | cons b rest ih =>
    rw [List.length_cons] at short
    have waits : ¬(s.m_rx = [] ∧ b = 0xFF) := fun idle => begun idle.1
    have step := handle_collects selected file waits
      (by rw [List.length_append, List.length_singleton]; omega)
    have later := ih (s := { s with m_rx := s.m_rx ++ [b] }) selected file (by simp)
      (by rw [List.length_append, List.length_singleton]; omega)
    rw [exchange, step, later, List.length_cons, List.replicate_succ]
    simp

/-- The six bytes of a command. -/
theorem exchange_frame (l : Listening s) {rx : List Byte} (frame : Host.isFrame rx = true) :
    exchange s rx = (List.replicate 6 0xFF, s.frame rx) := by
  obtain ⟨command, length⟩ := (isFrame_iff rx).mp frame
  match rx, length with
  | [a, b, c, d, e, f], _ =>
    have command' : a &&& 0xC0 = 0x40 := command
    have first : ¬(s.m_rx = [] ∧ a = 0xFF) := by
      rintro ⟨-, rfl⟩
      exact absurd command' (by decide)
    have step := handle_collects l.selected l.file first (by rw [l.rx]; simp)
    rw [l.rx] at step
    have middle : exchange { s with m_rx := [a] } [b, c, d, e] =
        (List.replicate 4 0xFF, { s with m_rx := [a, b, c, d, e] }) :=
      exchange_collects (s := { s with m_rx := [a] }) l.selected l.file (List.cons_ne_nil _ _)
        (by simp)
    have last : { s with m_rx := [a, b, c, d, e] }.handle f = (0xFF, s.frame [a, b, c, d, e, f]) :=
      handle_frame (s := { s with m_rx := [a, b, c, d, e] }) l.selected l.file (List.cons_ne_nil _ _) frame
    have split : [a, b, c, d, e, f] = a :: ([b, c, d, e] ++ [f]) := rfl
    rw [split, exchange, step]
    dsimp only [List.nil_append]
    rw [exchange_append, middle]
    simp only [exchange, last]
    rfl

end Reading

section Reads
variable {once : Bool} {card : Card} {s : SdCardSpi} {h : Host}

theorem multiRead_command {arg : BitVec 32} (b : Buffers s)
    (inside : { s with m_lba := arg }.outOfRange = false) : (s.command 18 arg).m_multiRead = true := by
  have long : s.m_readBlock.tail.length = 515 := by rw [List.length_tail, b.read]
  obtain ⟨d, block, -⟩ :=
    loadBlock_inside (s := { s with m_multiRead := true, m_lba := arg }) long inside
  change ({ s with m_multiRead := true }.readCommand arg).m_multiRead = true
  unfold SdCardSpi.readCommand
  dsimp only
  rw [block]
  rfl

/-- A read command frame of a block that is there starts to send it. -/
theorem reading_frame (t : Tracks once card s h) (b : Buffers s) (l : Listening s) {rx : List Byte}
    (kind : h.code rx = 17 ∨ h.code rx = 18)
    (range : (SdCardSpi.argument rx).toNat * 512 < card.size) :
    ∃ d, DataOf h.blocks (SdCardSpi.argument rx).toNat d ∧
      Reading (s.frame rx) h.blocks (0 :: answerOf d) (SdCardSpi.argument rx) ∧
      (h.code rx = 18 → (s.frame rx).m_multiRead = true) ∧ (s.frame rx).m_size.toNat = card.size := by
  have code : (if s.m_acmd then rx.getD 0 0 &&& 0x3F ||| 0x80 else rx.getD 0 0 &&& 0x3F) = h.code rx := by
    rw [Host.code, t.acmd]
  unfold SdCardSpi.frame
  dsimp only
  rw [code]
  generalize SdCardSpi.argument rx = arg at range
  generalize h.code rx = cmd at kind
  have done := commanded_command { s with m_rx := [], m_acmd := false, m_lastCmd := cmd } cmd arg
  have multi : cmd = 18 →
      (SdCardSpi.command { s with m_rx := [], m_acmd := false, m_lastCmd := cmd } cmd arg).m_multiRead =
        true := by
    rintro rfl
    exact multiRead_command ⟨b.read, b.next⟩ ((outOfRange_iff t arg).mpr range)
  generalize SdCardSpi.command { s with m_rx := [], m_acmd := false, m_lastCmd := cmd } cmd arg = s'
    at done multi
  have same := done.same
  have lba := done.lba (by tauto)
  have size : s'.m_size.toNat = card.size := by
    rw [same.size]
    exact t.size
  have inside : s'.outOfRange = false := by
    simp only [SdCardSpi.outOfRange, lba, size, decide_eq_false_iff_not, Nat.not_le]
    exact range
  obtain ⟨length, d, answer, size_d, content⟩ := (done.reads ⟨b.read, b.next⟩ kind).inside inside
  rw [same.file, lba, file_block t range] at content
  refine ⟨d, ⟨size_d, content⟩, ⟨⟨?_, ?_, same.rx⟩, answer, rfl, ?_, List.cons_ne_nil _ _, lba,
    (done.buffers ⟨b.read, b.next⟩).next, ?_⟩, multi, size⟩
  · exact same.selected.trans l.selected
  · dsimp only
    rw [same.file]
    exact l.file
  · simp [length, answerOf, size_d]
  · intro lba' range'
    dsimp only at range' ⊢
    rw [size] at range'
    rw [same.file]
    exact file_block t range'

/-- What a card owes its host in a state. -/
structure BlockStore (card : Card) (s : SdCardSpi) (h : Host) : Prop where
  /-- Every block holds what the host expects. -/
  blocks : ∃ data, s.m_file = some data ∧
    ∀ lba, lba * 512 < card.size → slice data (lba * 512) 512 = h.blocks lba
  /-- A block that is being sent is the one the card is at, as it is now. -/
  answers : ∀ r, s.m_resp = some r → 515 ≤ s.m_respLen →
    s.m_respLen = r.length ∧ Shows r (h.blocks s.m_lba.toNat)
  /-- A read command and idle bytes give the block, or the block and the ones behind it. -/
  reads : ∀ rx n, h.selected = true → h.sent = [] → Host.isFrame rx = true →
    h.code rx = 17 ∧ n = 0 ∨ h.code rx = 18 →
    (SdCardSpi.argument rx).toNat + n < 2 ^ 32 →
    ((SdCardSpi.argument rx).toNat + n) * 512 < card.size →
    ∃ ds, List.Forall₂ (DataOf h.blocks) (List.range' (SdCardSpi.argument rx).toNat (n + 1)) ds ∧
      (exchange s (rx ++ List.replicate (516 + 515 * n) 0xFF)).1 =
        List.replicate 6 0xFF ++ (0 :: ds.flatMap answerOf)

theorem blockStore_of_tracks (t : Tracks once card s h) (b : Buffers s) : BlockStore card s h := by
  obtain ⟨data, file, -, blocks⟩ := t.file
  refine ⟨⟨data, file, blocks⟩, fun r answer whole => (t.shows r answer whole).2, ?_⟩
  intro rx n selected sent frame kind small range
  have l : Listening s := ⟨t.selected ▸ selected, by rw [file]; rfl, t.sent ▸ sent⟩
  have first : (SdCardSpi.argument rx).toNat * 512 < card.size :=
    (Nat.mul_le_mul_right 512 (Nat.le_add_right _ n)).trans_lt range
  obtain ⟨d, data, reading, multi, size⟩ := reading_frame t b l (by tauto) first
  have multi' : 0 < n → (s.frame rx).m_multiRead = true := fun more => multi (by
    rcases kind with ⟨-, rfl⟩ | many
    · exact absurd more (Nat.lt_irrefl 0)
    · exact many)
  obtain ⟨ds, all, out⟩ := exchange_blocks reading n multi' small (fun _ => size ▸ range)
  have length : (0 :: answerOf d).length = 516 := by simp [answerOf, data.1]
  refine ⟨d :: ds, .cons data all, ?_⟩
  rw [length] at out
  rw [exchange_append, exchange_frame l frame, out]
  rfl

end Reads

/-! ## Runs -/

def follow (once : Bool) (card : Card) (c : SdCardSpi × Host) (e : HostEvent) : SdCardSpi × Host :=
  (after c.1 e, c.2.next once card e)

/-- A card that has just been put in. -/
def inserted (card : Card) : SdCardSpi × Host :=
  (SdCardSpi.new.attach card.file card.readOnly, Host.new card)

theorem steady_inserted (card : Card) : Buffers (inserted card).1 ∧ Inside (inserted card).1 :=
  ⟨⟨List.length_replicate .., List.length_replicate ..⟩, nofun⟩

theorem tracks_inserted (once : Bool) (card : Card) :
    Tracks once card (inserted card).1 (inserted card).2 where
  size := BitVec.toNat_ofNat ..
  readOnly := rfl
  file := ⟨card.file, rfl, Nat.mod_le .., fun _ _ => rfl⟩
  selected := rfl
  sent := rfl
  acmd := rfl
  pending := nofun
  waits last := by
    have none_ : (0 : Byte) = 24 := last
    exact absurd none_ (by decide)
  shows := nofun

/-- The place in an answer is inside on every run. -/
theorem steady_run (once : Bool) (card : Card) (es : List HostEvent) :
    Buffers (es.foldl (follow once card) (inserted card)).1 ∧
      Inside (es.foldl (follow once card) (inserted card)).1 :=
  foldl_invariant (follow once card) (fun _ _ => True)
    (fun c => Buffers c.1 ∧ Inside c.1) (fun _ e steady _ => steady_after steady.1 steady.2 e) _ es
    (steady_inserted card) (guarded_of_forall _ _ (fun _ _ => trivial) _ es)

/-- On every run the place in an answer is inside. Where no read of many is open when a write
command's answer is taken to its end, the card is a block store in every state reached; a second
data block behind a write command may count as a write, or not happen. -/
theorem blockStore_of_clean (once : Bool) (card : Card) (es : List HostEvent) :
    Inside (es.foldl (follow once card) (inserted card)).1 ∧
      (Guarded (follow once card) (Clean once card) (inserted card) es →
        BlockStore card (es.foldl (follow once card) (inserted card)).1
          (es.foldl (follow once card) (inserted card)).2) := by
  refine ⟨(steady_run once card es).2, fun clean => ?_⟩
  have kept := foldl_invariant (follow once card) (Clean once card)
    (fun c => Tracks once card c.1 c.2 ∧ Buffers c.1 ∧ Inside c.1)
    (fun _ e sound clean => ⟨tracks_after sound.1 sound.2.1 clean, steady_after sound.2.1 sound.2.2 e⟩)
    _ es ⟨tracks_inserted once card, steady_inserted card⟩ clean
  exact blockStore_of_tracks kept.1 kept.2.1

/-- A card of one block. -/
def oneBlock : Card := ⟨List.replicate 512 0xAA, false⟩

/-- It is read. -/
theorem blockStore_of_clean_read :
    (exchange (([.select true] : List HostEvent).foldl (follow true oneBlock) (inserted oneBlock)).1
      ([0x51, 0, 0, 0, 0, 0x95] ++ List.replicate (516 + 515 * 0) 0xFF)).1 =
      List.replicate 6 0xFF ++ (0 :: answerOf oneBlock.file) := by
  have store := (blockStore_of_clean true oneBlock [.select true]).2 ⟨⟨id, fun _ => id⟩, trivial⟩
  have first : (SdCardSpi.argument [0x51, 0, 0, 0, 0, 0x95]).toNat = 0 := by decide
  have file : oneBlock.file.length = 512 := List.length_replicate ..
  have size : oneBlock.size = 512 := by
    rw [Card.size, file]
    exact Nat.mod_eq_of_lt (by decide)
  obtain ⟨ds, all, out⟩ := store.reads [0x51, 0, 0, 0, 0, 0x95] 0 rfl rfl (by decide) (.inl (by decide))
    (by rw [first]; decide) (by rw [first, size]; decide)
  rw [first] at all
  cases all with
  | cons data rest =>
    cases rest
    obtain ⟨length, content⟩ := data
    have held : slice oneBlock.file (0 * 512) 512 <+: _ := content
    rw [slice, Nat.zero_mul, List.drop_zero, List.take_of_length_le file.le] at held
    have same := held.eq_of_length (by rw [file, length])
    rw [out, List.flatMap_cons, List.flatMap_nil, List.append_nil, same]

/-- A read of many blocks is open when block 0 is written, and block 1 takes the data. -/
def openRead : List HostEvent :=
  .select true :: ([0x52, 0, 0, 0, 0, 1] ++ [0x58, 0, 0, 0, 0, 1] ++ [0xFF] ++
    0xFE :: List.replicate 514 0x55 : List Byte).map .byte

def twoBlocks : Card := ⟨List.replicate 1024 0, false⟩

set_option maxRecDepth 100000 in
theorem not_blockStore_open_read : ¬∀ (card : Card) (es : List HostEvent),
    BlockStore card (es.foldl (follow false card) (inserted card)).1
      (es.foldl (follow false card) (inserted card)).2 := by
  intro all
  obtain ⟨data, file, blocks⟩ := (all twoBlocks openRead).blocks
  have size : twoBlocks.size = 1024 := by
    rw [Card.size, twoBlocks, List.length_replicate]
    exact Nat.mod_eq_of_lt (by decide)
  have block := blocks 0 (by rw [size]; decide)
  have unchanged : (openRead.foldl (follow false twoBlocks) (inserted twoBlocks)).1.m_file.map
      (fun data => (slice data (0 * 512) 512).head?) = some (some 0) := by
    decide
  have expected : ((openRead.foldl (follow false twoBlocks) (inserted twoBlocks)).2.blocks 0).head? =
      some 0x55 := by
    decide
  rw [file, Option.map_some, block, expected] at unchanged
  exact absurd unchanged (by decide)

end Mmemu.Guarantees.SpiBlocks
