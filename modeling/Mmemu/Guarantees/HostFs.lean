import Mathlib.Tactic.Common
import Mmemu.Source.X16HostFs

/-!
# RAM behind the X16's addresses

A block transfer goes through consecutive addresses, and from $BFFF to $A000 in the next bank.
The bytes behind them are consecutive cells of the low RAM or of the banked RAM, and a store
changes its own cell only.
-/
namespace Mmemu.Guarantees.HostFsCells
open Mmemu.Source Mmemu.Source.HostDos Mmemu.Source.X16HostFs Mmemu.Source.X16HostFs.HostFs

variable {δ : Type} (dev : Devices δ)

/-! ## Cells -/

/-- A byte of RAM: below $9F00, or in the banks one behind the other. -/
inductive Cell where
  | low (addr : ℕ)
  | banked (i : ℕ)
  deriving DecidableEq

def Cell.value (bus : X16Bus δ) : Cell → Byte
  | .low addr => bus.ram addr
  | .banked i => bus.bram i

def Cell.plus : Cell → ℕ → Cell
  | .low addr, n => .low (addr + n)
  | .banked i, n => .banked (i + n)

theorem plus_add (c : Cell) (m n : ℕ) : (c.plus m).plus n = c.plus (m + n) := by
  cases c with
  | low addr => exact congrArg Cell.low (Nat.add_assoc ..)
  | banked i => exact congrArg Cell.banked (Nat.add_assoc ..)

theorem plus_inj {c : Cell} {m n : ℕ} (h : c.plus m = c.plus n) : m = n := by
  cases c with
  | low addr => exact Nat.add_left_cancel (Cell.low.inj h)
  | banked i => exact Nat.add_left_cancel (Cell.banked.inj h)

/-- The RAM behind an address, if there is some. -/
def cellAt (p : Place) : Option Cell :=
  if p.addr < 0x9F00 then some (.low p.addr)
  else if 0xA000 ≤ p.addr ∧ p.addr < 0xC000 ∧ p.ramBank.toNat < RAM_BANKS then
    some (.banked (X16Bus.bramIndex p.ramBank.toNat p.addr))
  else none

/-- The next address: $BFFF is followed by $A000 in the next bank. -/
def next (p : Place) : Place :=
  if (p.addr + 1) % 0x10000 = 0xC000 then { addr := 0xA000, ramBank := p.ramBank + 1 }
  else { p with addr := (p.addr + 1) % 0x10000 }

theorem advance_place (bus : X16Bus δ) (p : Place) : (advance dev bus p).1 = next p := by
  unfold advance next
  dsimp only
  split <;> rfl

theorem cellAt_banked {p : Place} {c : Cell} (here : cellAt p = some c) (high : ¬ p.addr < 0x9F00) :
    c = .banked (X16Bus.bramIndex p.ramBank.toNat p.addr) := by
  rw [cellAt, if_neg high] at here
  split at here
  · exact (Option.some.inj here).symm
  · cases here

/-- The next byte of RAM is behind this one. -/
theorem cellAt_next {p : Place} {c c' : Cell} (here : cellAt p = some c)
    (there : cellAt (next p) = some c') : c' = c.plus 1 := by
  unfold cellAt at here
  split at here
  next low =>
    obtain rfl := Option.some.inj here
    have step : next p = { p with addr := p.addr + 1 } := by
      unfold next
      rw [if_neg (by omega), Nat.mod_eq_of_lt (by omega)]
    rw [step] at there
    unfold cellAt at there
    dsimp only at there
    split at there
    · exact (Option.some.inj there).symm
    next high => rw [if_neg (by omega)] at there; cases there
  · split at here
    next banked =>
      have same := Option.some.inj here
      subst same
      obtain ⟨from_, below, bank⟩ := banked
      by_cases wraps : (p.addr + 1) % 0x10000 = 0xC000
      · rw [next, if_pos wraps] at there
        have more : p.ramBank.toNat + 1 = (p.ramBank + 1).toNat := by
          rw [BitVec.toNat_add]
          have one : (1 : Byte).toNat = 1 := rfl
          unfold RAM_BANKS at bank
          omega
        have banked' := cellAt_banked there (Nat.not_lt_of_le (show 0x9F00 ≤ 0xA000 by omega))
        refine banked'.trans (congrArg Cell.banked ?_)
        unfold X16Bus.bramIndex RAM_BANK_SIZE
        dsimp only
        omega
      · have place : (p.addr + 1) % 0x10000 = p.addr + 1 := Nat.mod_eq_of_lt (by omega)
        rw [next, if_neg wraps, place] at there
        have banked' := cellAt_banked there (show ¬ p.addr + 1 < 0x9F00 by omega)
        refine banked'.trans (congrArg Cell.banked ?_)
        unfold X16Bus.bramIndex
        dsimp only
        omega
    · cases here

/-- Along consecutive RAM addresses the cells are consecutive. -/
theorem cellAt_iterate {p : Place} {c : Cell} (here : cellAt p = some c) (n : ℕ)
    (ram : ∀ i, i ≤ n → (cellAt (next^[i] p)).isSome) : cellAt (next^[n] p) = some (c.plus n) := by
  induction n with
  | zero =>
    rw [Function.iterate_zero, id, here]
    cases c <;> rfl
  | succ n ih =>
    have before := ih (fun i hi => ram i (by omega))
    have there := ram (n + 1) (Nat.le_refl _)
    rw [Function.iterate_succ_apply'] at there ⊢
    obtain ⟨c', hc⟩ := Option.isSome_iff_exists.mp there
    rw [hc, cellAt_next before hc, plus_add]

/-! ## Stores -/

/-- A store to RAM changes its cell and no other. -/
theorem value_write8 {bus : X16Bus δ} {p : Place} {c : Cell} (bank : bus.ramBank = p.ramBank)
    (here : cellAt p = some c) (v : Byte) (c' : Cell) :
    c'.value (bus.write8 dev p.addr v) = if c' = c then v else c'.value bus := by
  unfold cellAt at here
  split at here
  next low =>
    obtain rfl := Option.some.inj here
    rw [X16Bus.write8, if_pos low]
    cases c' with
    | low addr =>
      change Function.update bus.ram p.addr v addr = _
      by_cases same : addr = p.addr
      · rw [same, Function.update_self, if_pos rfl]
      · rw [Function.update_of_ne same, if_neg (fun h => same (Cell.low.inj h))]
        rfl
    | banked i => exact (if_neg (fun h => by cases h)).symm
  · split at here
    next banked =>
      have same := Option.some.inj here
      subst same
      obtain ⟨from_, below, inside⟩ := banked
      rw [X16Bus.write8, if_neg (by omega), if_neg (by omega), if_pos below,
        if_pos (by rw [bank]; exact inside), ← bank]
      cases c' with
      | low addr => exact (if_neg (fun h => by cases h)).symm
      | banked i =>
        simp only [Cell.value]
        by_cases same : i = X16Bus.bramIndex bus.ramBank.toNat p.addr
        · rw [same, Function.update_self, if_pos rfl]
        · rw [Function.update_of_ne same, if_neg (fun h => same (Cell.banked.inj h))]
    · cases here

theorem value_read8 {bus : X16Bus δ} {p : Place} {c : Cell} (bank : bus.ramBank = p.ramBank)
    (here : cellAt p = some c) : bus.read8 dev p.addr = (c.value bus, bus) := by
  unfold cellAt at here
  split at here
  next low =>
    obtain rfl := Option.some.inj here
    exact if_pos low
  · split at here
    next banked =>
      have same := Option.some.inj here
      subst same
      obtain ⟨from_, below, inside⟩ := banked
      rw [X16Bus.read8, if_neg (by omega), if_neg (by omega), if_pos below, if_pos (by rw [bank]; exact inside),
        bank]
      rfl
    · cases here

/-- A store outside of address 0 keeps the bank. -/
theorem ramBank_write8 {bus : X16Bus δ} {addr : ℕ} (other : addr ≠ 0) (v : Byte) :
    (bus.write8 dev addr v).ramBank = bus.ramBank := by
  unfold X16Bus.write8
  split
  · exact if_neg other
  · split
    · rfl
    · split
      · split <;> rfl
      · rfl

theorem value_advance (bus : X16Bus δ) (p : Place) {c : Cell} (other : c ≠ .low 0) :
    c.value (advance dev bus p).2 = c.value bus := by
  unfold advance
  dsimp only
  split
  · exact (value_write8 dev (p := ⟨0, bus.ramBank⟩) (c := .low 0) rfl rfl (p.ramBank + 1) c).trans
      (if_neg other)
  · rfl

theorem ramBank_advance {bus : X16Bus δ} {p : Place} (bank : bus.ramBank = p.ramBank) :
    (advance dev bus p).2.ramBank = (next p).ramBank := by
  unfold advance next
  dsimp only
  split
  · rfl
  · exact bank

/-- The bytes from a place on lie in RAM, outside of address 0. -/
def InRam (p : Place) (n : ℕ) : Prop :=
  ∀ i, i < n → ∃ c, cellAt (next^[i] p) = some c ∧ c ≠ .low 0

theorem inRam_next {p : Place} {n : ℕ} (h : InRam p (n + 1)) : InRam (next p) n :=
  fun i hi => h (i + 1) (by omega)

theorem inRam_iff (p : Place) (n : ℕ) : InRam p n ↔
    ∀ i, i < n → cellAt (next^[i] p) ≠ none ∧ cellAt (next^[i] p) ≠ some (.low 0) := by
  refine forall₂_congr (fun i _ => ?_)
  constructor
  · rintro ⟨c, here, other⟩
    rw [here]
    exact ⟨Option.some_ne_none c, fun h => other (Option.some.inj h)⟩
  · rintro ⟨some_, other⟩
    obtain ⟨c, here⟩ := Option.ne_none_iff_exists'.mp some_
    exact ⟨c, here, fun h => other (h ▸ here)⟩

instance (p : Place) (n : ℕ) : Decidable (InRam p n) := decidable_of_iff _ (inRam_iff p n).symm

/-- A byte stored, and the place of the next one. -/
def storeOne (streamMode : Bool) (p : Place) (b : Byte) (bus : X16Bus δ) : Place × X16Bus δ :=
  if streamMode then (p, bus.write8 dev p.addr b) else advance dev (bus.write8 dev p.addr b) p

/-- Bytes stored from a place on. -/
def storeAll (streamMode : Bool) : Place → List Byte → X16Bus δ → X16Bus δ
  | _, [], bus => bus
  | p, b :: rest, bus =>
    storeAll streamMode (storeOne dev streamMode p b bus).1 rest (storeOne dev streamMode p b bus).2

/-- What is stored from a place on is there, byte after byte. -/
theorem storeAll_bytes (bytes : List Byte) {p : Place} {bus : X16Bus δ}
    (bank : bus.ramBank = p.ramBank) (ram : InRam p bytes.length) :
    (∀ c, c ≠ .low 0 → (∀ i, i < bytes.length → cellAt (next^[i] p) ≠ some c) →
      c.value (storeAll dev false p bytes bus) = c.value bus) ∧
    ∀ i (hi : i < bytes.length) c, cellAt (next^[i] p) = some c →
      c.value (storeAll dev false p bytes bus) = bytes[i] := by
  induction bytes generalizing p bus with
  | nil => exact ⟨fun _ _ _ => rfl, fun i hi => absurd hi (Nat.not_lt_zero i)⟩
  | cons b rest ih =>
    obtain ⟨first, here, zero⟩ := ram 0 (Nat.succ_pos _)
    have addr : p.addr ≠ 0 := by
      intro origin
      have low : cellAt p = some (.low 0) := by
        unfold cellAt
        rw [origin]
        rfl
      exact zero (Option.some.inj (here.symm.trans low))
    have kept : ((advance dev (bus.write8 dev p.addr b) p).2).ramBank = (next p).ramBank :=
      ramBank_advance dev ((ramBank_write8 dev addr b).trans bank)
    obtain ⟨others, stored⟩ := ih kept (inRam_next ram)
    have run : storeAll dev false p (b :: rest) bus =
        storeAll dev false (next p) rest (advance dev (bus.write8 dev p.addr b) p).2 := by
      rw [← advance_place dev (bus.write8 dev p.addr b) p]
      rfl
    rw [run]
    constructor
    · intro c apart away
      have one : c ≠ first := fun same => away 0 (Nat.succ_pos _) (same ▸ here)
      rw [others c apart (fun i hi => away (i + 1) (Nat.succ_lt_succ hi)), value_advance dev _ _ apart,
        value_write8 dev bank here, if_neg one]
    · intro i hi c place
      cases i with
      | zero =>
        obtain rfl : first = c := Option.some.inj (here.symm.trans place)
        rw [others first zero, value_advance dev _ _ zero, value_write8 dev bank here, if_pos rfl]
        · rfl
        · intro j hj again
          have far := cellAt_iterate here (j + 1) (fun k hk => by
            obtain ⟨c, hc, -⟩ := ram k (by rw [List.length_cons]; omega)
            exact Option.isSome_iff_exists.mpr ⟨c, hc⟩)
          have same : first.plus 0 = first.plus (j + 1) := by
            have := Option.some.inj (again.symm.trans far)
            rw [← this]
            cases first <;> rfl
          exact absurd (plus_inj same) (by omega)
      | succ i => exact stored i (Nat.lt_of_succ_lt_succ hi) c place

end Mmemu.Guarantees.HostFsCells

/-!
# Block transfers of the X16's HostFS

MACPTR and MCIOUT have their own loop for what the KERNAL can also do a byte at a time. On a
data channel the loop reads what as many ACPTR calls would, ends where they end and leaves the
drive as they do, as long as the stream's end-of-file indicator is not stale; and it sends what
CIOUT calls would.
-/
namespace Mmemu.Guarantees.HostFsBlocks
open Mmemu.Library.Splice Mmemu.Source Mmemu.Source.HostDos Mmemu.Source.X16HostFs
  Mmemu.Source.X16HostFs.HostFs Mmemu.Guarantees.HostFsCells

variable {δ : Type} (dev : Devices δ) (command : List Byte → Dos → Dos)
  (continueDirectoryListing : Dos → List Byte × Dos)

/-! ## Channels -/

theorem ch_setCh (d : Dos) (c : Channel) : (d.setCh c).ch = c := Function.update_self ..

theorem setCh_setCh (d : Dos) (c c' : Channel) : (d.setCh c).setCh c' = d.setCh c' := by
  unfold Dos.setCh
  rw [Function.update_idem]

theorem setCh_ch (d : Dos) : d.setCh d.ch = d := by
  unfold Dos.setCh Dos.ch
  rw [Function.update_eq_self]

/-- The drive with another state of the selected channel's file. -/
def withFile (d : Dos) (f : File) : Dos := d.setCh { d.ch with f := some f }

/-- The drive with the selected channel read to its end. -/
def readOut (d : Dos) : Dos := d.setCh { d.ch with name := [], read := false, f := none }

theorem withFile_withFile (d : Dos) (f g : File) : withFile (withFile d f) g = withFile d g := by
  unfold withFile
  rw [ch_setCh, setCh_setCh]

theorem readOut_withFile (d : Dos) (f : File) : readOut (withFile d f) = readOut d := by
  unfold readOut withFile
  rw [ch_setCh, setCh_setCh]

theorem cclose_read (d : Dos) (f : File) :
    (d.setCh { d.ch with read := false, f := some f }).cclose = readOut d := by
  unfold Dos.cclose readOut
  rw [ch_setCh, setCh_setCh]

/-- A channel with a file open for reading, not a directory. -/
structure Data (d : Dos) : Prop where
  talking : d.talking = true
  channel : d.channel ≠ 15
  read : d.ch.read = true
  file : ¬ d.ch.directory

theorem data_withFile {d : Dos} (h : Data d) (f : File) : Data (withFile d f) where
  talking := h.talking
  channel := h.channel
  read := (congrArg Channel.read (ch_setCh ..)).trans h.read
  file := by
    unfold withFile
    rw [ch_setCh]
    exact h.file

theorem withFile_of_file {d : Dos} {f : File} (file : d.ch.f = some f) : withFile d f = d := by
  unfold withFile
  rw [← file]
  exact setCh_ch d

/-! ## One byte -/

/-- What ACPTR makes of what was read. -/
def reply (d : Dos) : Option Byte × File → ℤ × Byte × Dos
  | (none, g) => (0x42, 0, withFile d g)
  | (some c, g) =>
    if g.pos = g.data.length then (0x40, c, readOut d)
    else (0, c, withFile d { g with eof := false })

/-- ACPTR on a data channel reads the file. -/
theorem acptr_data {d : Dos} (h : Data d) (f : File) (a : Byte) :
    (withFile d f).acptr continueDirectoryListing a = reply d f.fgetc := by
  have opened := data_withFile h f
  have file : (withFile d f).ch.f = some f := congrArg Channel.f (ch_setCh ..)
  unfold Dos.acptr
  rw [if_neg (by rw [opened.talking]; decide), if_neg opened.channel, if_pos opened.read,
    if_neg opened.file, file]
  dsimp only
  generalize f.fgetc = got
  obtain ⟨_ | c, g⟩ := got
  · exact congrArg (fun d => ((0x42 : ℤ), (0 : Byte), d)) (withFile_withFile d f g)
  · dsimp only [File.seekEnd, File.fseek, reply]
    rw [cclose_read, readOut_withFile, ← withFile, withFile_withFile]
    rfl

/-- The indicator is left over from a time when the file was shorter. -/
def Stale (f : File) : Prop := f.eof = true ∧ f.pos < f.data.length

theorem fgetc_of_more {f : File} (clear : f.eof = false) (more : f.pos < f.data.length) :
    f.fgetc = (some f.data[f.pos], { f with pos := f.pos + 1 }) := by
  unfold File.fgetc
  rw [if_neg (by rw [clear]; decide), List.getElem?_eq_getElem more]

theorem fgetc_at_end {f : File} (done : f.data.length ≤ f.pos) :
    f.fgetc = (none, { f with eof := true }) := by
  unfold File.fgetc
  split
  next set => rw [← set]
  · rw [List.getElem?_eq_none done]

/-! ## Byte by byte -/

/-- ACPTR calls until the drive reports an end, `n` at most: the bytes, the last STATUS and the
drive. -/
def acptrs : ℕ → Dos → List Byte × ℤ × Dos
  | 0, d => ([], 0, d)
  | n + 1, d =>
    let (s, v, d) := d.acptr continueDirectoryListing 0
    if s = 0 then
      let (bytes, s, d) := acptrs n d
      (v :: bytes, s, d)
    else if s = 0x40 then ([v], s, d)
    else ([], s, d)

theorem acptrs_end {d : Dos} (h : Data d) {f g : File} (read : f.fgetc = (none, g)) (n : ℕ) :
    acptrs continueDirectoryListing (n + 1) (withFile d f) = ([], 0x42, withFile d g) := by
  rw [acptrs, acptr_data continueDirectoryListing h f 0, read]
  rfl

theorem acptrs_last {d : Dos} (h : Data d) {f g : File} {c : Byte} (read : f.fgetc = (some c, g))
    (last : g.pos = g.data.length) (n : ℕ) :
    acptrs continueDirectoryListing (n + 1) (withFile d f) = ([c], 0x40, readOut d) := by
  rw [acptrs, acptr_data continueDirectoryListing h f 0, read]
  dsimp only [reply]
  rw [if_pos last]
  rfl

theorem acptrs_next {d : Dos} (h : Data d) {f g : File} {c : Byte} (read : f.fgetc = (some c, g))
    (more : g.pos ≠ g.data.length) (n : ℕ) :
    acptrs continueDirectoryListing (n + 1) (withFile d f) =
      let rest := acptrs continueDirectoryListing n (withFile d { g with eof := false })
      (c :: rest.1, rest.2) := by
  rw [acptrs, acptr_data continueDirectoryListing h f 0, read]
  dsimp only [reply]
  rw [if_neg more]
  rfl

theorem macptrLoop_last {f g : File} {c : Byte} (read : f.fgetc = (some c, g)) (streamMode : Bool)
    (n : ℕ) {curpos endpos : ℕ} (last : curpos + 1 = endpos) (p : Place) (d : Dos) (bus : X16Bus δ) :
    macptrLoop dev streamMode endpos (n + 1) curpos p f d bus =
      (0x40, 1, readOut d, (storeOne dev streamMode p c bus).2) := by
  rw [macptrLoop, read]
  dsimp only
  rw [decide_eq_true last, cclose_read]
  rfl

theorem macptrLoop_more {f g : File} {c : Byte} (read : f.fgetc = (some c, g)) (streamMode : Bool)
    (n : ℕ) {curpos endpos : ℕ} (more : curpos + 1 ≠ endpos) (p : Place) (d : Dos) (bus : X16Bus δ) :
    macptrLoop dev streamMode endpos (n + 1) curpos p f d bus =
      let rest := macptrLoop dev streamMode endpos n (curpos + 1) (storeOne dev streamMode p c bus).1 g d
        (storeOne dev streamMode p c bus).2
      (rest.1, rest.2.1 + 1, rest.2.2) := by
  rw [macptrLoop, read]
  dsimp only
  rw [decide_eq_false more]
  rfl

/-- The loop of MACPTR reads what ACPTR calls do. -/
theorem macptrLoop_acptrs {d : Dos} (h : Data d) (streamMode : Bool) (n : ℕ) {f : File}
    (clear : f.eof = false) (p : Place) (bus : X16Bus δ) :
    macptrLoop dev streamMode f.data.length n f.pos p f d bus =
      let calls := acptrs continueDirectoryListing n (withFile d f)
      (calls.2.1, calls.1.length, calls.2.2, storeAll dev streamMode p calls.1 bus) := by
  induction n generalizing f p bus with
  | zero => rfl
  | succ n ih =>
    by_cases more : f.pos < f.data.length
    · have read := fgetc_of_more clear more
      by_cases last : f.pos + 1 = f.data.length
      · rw [acptrs_last continueDirectoryListing h read last, macptrLoop_last dev read streamMode n last]
        rfl
      · have later := ih (f := { f with pos := f.pos + 1 }) clear
          (storeOne dev streamMode p f.data[f.pos] bus).1 (storeOne dev streamMode p f.data[f.pos] bus).2
        rw [acptrs_next continueDirectoryListing h read last, macptrLoop_more dev read streamMode n last,
          later, clear]
        rfl
    · have done := fgetc_at_end (Nat.le_of_not_lt more)
      rw [acptrs_end continueDirectoryListing h done, macptrLoop, done]
      rfl

/-- Behind the last byte of the file nothing is read. -/
theorem acptrs_at_end {d : Dos} (h : Data d) {f : File} (done : f.data.length ≤ f.pos) (n : ℕ) :
    acptrs continueDirectoryListing (n + 1) (withFile d f) =
      ([], 0x42, withFile d { f with eof := true }) :=
  acptrs_end continueDirectoryListing h (fgetc_at_end done) n

/-- In front of it the rest of the file is read, and its last byte comes with EOI. -/
theorem acptrs_more {d : Dos} (h : Data d) (n : ℕ) {f : File} (clear : f.eof = false)
    (more : f.pos < f.data.length) :
    let calls := acptrs continueDirectoryListing n (withFile d f)
    calls.1 = (f.data.drop f.pos).take n ∧
      calls.2.1 = if f.data.length ≤ f.pos + n then 0x40 else 0 := by
  induction n generalizing f with
  | zero => exact ⟨rfl, (if_neg (Nat.not_le_of_lt more)).symm⟩
  | succ n ih =>
    have read := fgetc_of_more clear more
    rw [List.drop_eq_getElem_cons more, List.take_succ_cons]
    by_cases last : f.pos + 1 = f.data.length
    · rw [acptrs_last continueDirectoryListing h read last, if_pos (by omega),
        List.drop_of_length_le (by omega), List.take_nil]
      exact ⟨rfl, rfl⟩
    · obtain ⟨bytes, status⟩ := ih (f := { f with pos := f.pos + 1, eof := false }) rfl
        (show f.pos + 1 < f.data.length by omega)
      have place : f.pos + (n + 1) = f.pos + 1 + n := by omega
      rw [acptrs_next continueDirectoryListing h read last, place]
      exact ⟨congrArg (f.data[f.pos] :: ·) bytes, status⟩

/-- The calls change the selected channel only. -/
theorem acptrs_setCh {d : Dos} (h : Data d) (n : ℕ) (f : File) :
    ∃ c, (acptrs continueDirectoryListing n (withFile d f)).2.2 = d.setCh c := by
  induction n generalizing f with
  | zero => exact ⟨_, rfl⟩
  | succ n ih =>
    rcases read : f.fgetc with ⟨_ | c, g⟩
    · rw [acptrs_end continueDirectoryListing h read]
      exact ⟨_, rfl⟩
    · by_cases last : g.pos = g.data.length
      · rw [acptrs_last continueDirectoryListing h read last]
        exact ⟨_, rfl⟩
      · rw [acptrs_next continueDirectoryListing h read last]
        exact ih { g with eof := false }

theorem blockCount_pos (count : Byte) : 0 < blockCount count := by
  unfold blockCount
  split
  · omega
  next some_ =>
    have apart : count.toNat ≠ 0 := fun h => some_ (BitVec.eq_of_toNat_eq h)
    omega

/-- MACPTR reads what ACPTR calls do and stores it. -/
theorem macptr_acptrs {h : HostFs δ} (data : Data h.dos) {f : File} (file : h.dos.ch.f = some f)
    (fresh : ¬ Stale f) (addr : ℕ) (count : Byte) (streamMode : Bool) :
    macptr dev addr count streamMode h =
      let calls := acptrs continueDirectoryListing (blockCount count) h.dos
      (calls.2.1, calls.1.length, { h with
        dos := calls.2.2, bus := storeAll dev streamMode ⟨addr, h.bus.ramBank⟩ calls.1 h.bus }) := by
  have same : acptrs continueDirectoryListing (blockCount count) (withFile h.dos { f with eof := false }) =
      acptrs continueDirectoryListing (blockCount count) h.dos := by
    obtain ⟨n, positive⟩ := Nat.exists_eq_succ_of_ne_zero (Nat.ne_of_gt (blockCount_pos count))
    rw [positive]
    by_cases more : f.pos < f.data.length
    · have clear : f.eof = false := Bool.eq_false_of_not_eq_true (fun set => fresh ⟨set, more⟩)
      rw [← clear]
      exact congrArg _ (withFile_of_file file)
    · have done := Nat.le_of_not_lt more
      have ended := acptrs_at_end continueDirectoryListing data (f := f) done n
      rw [withFile_of_file file] at ended
      exact (acptrs_at_end continueDirectoryListing data (f := { f with eof := false }) done n).trans ended.symm
  have loop := macptrLoop_acptrs dev continueDirectoryListing data streamMode (blockCount count)
    (f := { f with eof := false }) rfl ⟨addr, h.bus.ramBank⟩ h.bus
  rw [same] at loop
  have latch : h.bus.read8 dev 0 = (h.bus.ramBank, h.bus) := congrArg (·, h.bus) h.bus.latched
  unfold macptr
  rw [if_neg (by rw [data.talking]; decide), latch]
  dsimp only
  rw [file]
  dsimp only
  rw [if_pos ⟨data.channel, data.read, data.file⟩]
  dsimp only [File.seekEnd, File.fseek]
  rw [loop]

/-! ## Sending -/

/-- The bytes at `n` addresses from a place on, as they are read one after the other. -/
def collect (streamMode : Bool) : ℕ → Place → X16Bus δ → List Byte × X16Bus δ
  | 0, _, bus => ([], bus)
  | n + 1, p, bus =>
    let one := bus.read8 dev p.addr
    let moved := if streamMode then (p, one.2) else advance dev one.2 p
    let rest := collect streamMode n moved.1 moved.2
    (one.1 :: rest.1, rest.2)

/-- CIOUT calls, one for each byte: the STATUS of the last one, and the drive. -/
def ciouts (s : ℤ) (d : Dos) : List Byte → ℤ × Dos
  | [] => (s, d)
  | b :: rest => ciouts (d.ciout command b).1 (d.ciout command b).2 rest

/-- What the loop of MCIOUT does: it sends bytes as CIOUT does, and stops early only where
a byte is refused. -/
structure Sent (streamMode : Bool) (n : ℕ) (p : Place) (d : Dos) (bus : X16Bus δ)
    (out : ℤ × ℕ × Dos × X16Bus δ) : Prop where
  most : out.2.1 ≤ n
  all : out.1 = 0 → out.2.1 = n
  calls : ciouts command 0 d (collect dev streamMode out.2.1 p bus).1 = (out.1, out.2.2.1)
  bus : (collect dev streamMode out.2.1 p bus).2 = out.2.2.2

theorem mcioutLoop_sent (streamMode : Bool) (n : ℕ) (p : Place) (d : Dos) (bus : X16Bus δ) :
    Sent dev command streamMode n p d bus (mcioutLoop dev command streamMode n p d bus) := by
  induction n generalizing p d bus with
  | zero => exact ⟨Nat.le_refl 0, fun _ => rfl, rfl, rfl⟩
  | succ n ih =>
    rw [mcioutLoop]
    dsimp only
    by_cases refused : (d.ciout command (bus.read8 dev p.addr).1).1 ≠ 0
    · rw [if_pos refused]
      exact ⟨Nat.succ_le_succ (Nat.zero_le n), fun fine => absurd fine refused, rfl, rfl⟩
    · rw [if_neg refused]
      obtain ⟨most, all, calls, after⟩ := ih
        (if streamMode then (p, (bus.read8 dev p.addr).2) else advance dev (bus.read8 dev p.addr).2 p).1
        (d.ciout command (bus.read8 dev p.addr).1).2
        (if streamMode then (p, (bus.read8 dev p.addr).2) else advance dev (bus.read8 dev p.addr).2 p).2
      refine ⟨Nat.succ_le_succ most, fun fine => congrArg (· + 1) (all fine), ?_, after⟩
      refine Eq.trans ?_ calls
      rw [collect, ciouts, not_not.mp refused]

/-- Bytes in RAM are sent as they are there. -/
theorem collect_bytes (n : ℕ) {p : Place} {bus : X16Bus δ} (bank : bus.ramBank = p.ramBank)
    (ram : InRam p n) : (collect dev false n p bus).1.length = n ∧
      ∀ i c, i < n → cellAt (next^[i] p) = some c →
        (collect dev false n p bus).1[i]? = some (c.value bus) := by
  induction n generalizing p bus with
  | zero => exact ⟨rfl, fun i _ hi => absurd hi (Nat.not_lt_zero i)⟩
  | succ n ih =>
    obtain ⟨first, here, zero⟩ := ram 0 (Nat.succ_pos _)
    have read : bus.read8 dev p.addr = (first.value bus, bus) := value_read8 dev bank here
    have kept : (advance dev bus p).2.ramBank = (next p).ramBank := ramBank_advance dev bank
    obtain ⟨length, bytes⟩ := ih kept (inRam_next ram)
    have run : collect dev false (n + 1) p bus =
        (first.value bus :: (collect dev false n (next p) (advance dev bus p).2).1,
          (collect dev false n (next p) (advance dev bus p).2).2) := by
      rw [collect, read, ← advance_place dev bus p]
      rfl
    rw [run]
    refine ⟨congrArg (· + 1) length, fun i c hi place => ?_⟩
    cases i with
    | zero =>
      obtain rfl : first = c := Option.some.inj (here.symm.trans place)
      rfl
    | succ i =>
      obtain ⟨c', there, apart⟩ := ram (i + 1) hi
      obtain rfl : c' = c := Option.some.inj (there.symm.trans place)
      have byte := bytes i c' (Nat.lt_of_succ_lt_succ hi) place
      rw [value_advance dev bus p apart] at byte
      exact byte

/-! ## Calls -/

/-- The KERNAL is there, no SD card serves the unit, and no earlier call has left a note. -/
structure Ready (sdCard : Bool) (h : HostFs δ) : Prop where
  kernal : h.kernal
  sdCard : sdCard = false
  note : h.dos.errorNote = none

/-- Where a block call starts. -/
def start (r : Regs) (h : HostFs δ) : Place := ⟨r.y.toNat * 256 + r.x.toNat, h.bus.ramBank⟩

/-- After a call that the drive has served: STATUS is set, and the return address is off the
stack. -/
theorem handle_served {sdCard : Bool} {h h' : HostFs δ} (ready : Ready sdCard h) {call : Call}
    {r r' : Regs} {s : ℤ} (out : serve dev command continueDirectoryListing call r h = (s, r', h'))
    (status : 0 ≤ s) (quiet : h'.dos.errorNote = none) :
    ∃ sp pc, handle dev command continueDirectoryListing sdCard call r h =
      some ({ r' with sp, pc }, h'.setKernalStatus dev (BitVec.ofInt 8 s)) := by
  have mirrored : h'.mirrorError dev = h' := by
    unfold HostFs.mirrorError
    rw [quiet]
  have stack : ∀ (bus : X16Bus δ) (v : Byte), (bus.read8 dev (0x0100 + v.toNat)).2 = bus := by
    intro bus v
    have := v.isLt
    unfold X16Bus.read8
    rw [if_pos (by omega)]
  unfold HostFs.handle
  rw [if_neg (by rw [not_or, not_not, ready.sdCard]; exact ⟨ready.kernal, by decide⟩), out]
  dsimp only
  rw [mirrored, if_neg (by omega), if_pos status, stack, stack]
  exact ⟨_, _, rfl⟩

/-- The count in X and Y. -/
theorem count_registers {n : ℕ} (fits : n ≤ 256) :
    (BitVec.ofNat 8 n).toNat + 256 * (BitVec.ofNat 8 (n / 256)).toNat = n := by
  rw [BitVec.toNat_ofNat, BitVec.toNat_ofNat]
  omega

theorem blockCount_le (count : Byte) : blockCount count ≤ 256 := by
  have := count.isLt
  unfold blockCount
  split <;> omega

/-! ## STATUS -/

/-- A store where no RAM is. -/
theorem value_write8_none {bus : X16Bus δ} {p : Place} (bank : bus.ramBank = p.ramBank)
    (here : cellAt p = none) (v : Byte) (c : Cell) : c.value (bus.write8 dev p.addr v) = c.value bus := by
  unfold cellAt at here
  split at here
  · cases here
  next high =>
    split at here
    · cases here
    next nowhere =>
      unfold X16Bus.write8
      rw [if_neg high]
      split
      · cases c <;> rfl
      · split
        · rw [if_neg (by rw [bank]; omega)]
        · rfl

/-- The cells that STATUS may be in, whatever bank is selected. -/
def StatusCell (h : HostFs δ) (c : Cell) : Prop := ∃ bank, cellAt ⟨h.statusAddr, bank⟩ = some c

theorem value_setKernalStatus (h : HostFs δ) (s : Byte) {c : Cell} (other : ¬ StatusCell h c) :
    c.value (h.setKernalStatus dev s).bus = c.value h.bus := by
  unfold HostFs.setKernalStatus
  split
  · cases here : cellAt ⟨h.statusAddr, h.bus.ramBank⟩ with
    | none => exact value_write8_none dev (p := ⟨h.statusAddr, h.bus.ramBank⟩) rfl here s c
    | some c' =>
      refine (value_write8 dev (p := ⟨h.statusAddr, h.bus.ramBank⟩) rfl here s c).trans (if_neg ?_)
      rintro rfl
      exact other ⟨_, here⟩
  · rfl

theorem setKernalStatus_value {h : HostFs δ} (known : h.statusAddr ≠ 0) (s : Byte) {c : Cell}
    (here : cellAt ⟨h.statusAddr, h.bus.ramBank⟩ = some c) :
    c.value (h.setKernalStatus dev s).bus = s := by
  unfold HostFs.setKernalStatus
  rw [if_pos known]
  exact (value_write8 dev (p := ⟨h.statusAddr, h.bus.ramBank⟩) rfl here s c).trans (if_pos rfl)

theorem ramBank_setKernalStatus (h : HostFs δ) (s : Byte) :
    (h.setKernalStatus dev s).bus.ramBank = h.bus.ramBank := by
  unfold HostFs.setKernalStatus
  split
  next known => exact ramBank_write8 dev known s
  · rfl

/-! ## Block calls -/

/-- A MACPTR call with what the same number of ACPTR calls gives: `calls` are their bytes, the
last STATUS and the drive after them. -/
structure AsAcptr (r : Regs) (h : HostFs δ) (calls : List Byte × ℤ × Dos) (r' : Regs)
    (h' : HostFs δ) : Prop where
  drive : h'.dos = calls.2.2
  count : r'.x.toNat + 256 * r'.y.toNat = calls.1.length
  supported : r'.p.getLsbD 0 = false
  stored : ∀ i (hi : i < calls.1.length) c, cellAt (next^[i] (start r h)) = some c →
    c.value h'.bus = calls.1[i]
  kept : ∀ c, c ≠ .low 0 → ¬ StatusCell h c →
    (∀ i, i < calls.1.length → cellAt (next^[i] (start r h)) ≠ some c) → c.value h'.bus = c.value h.bus
  status : h.statusAddr ≠ 0 → ∀ c, cellAt ⟨h.statusAddr, h'.bus.ramBank⟩ = some c →
    c.value h'.bus = BitVec.ofInt 8 calls.2.1

/-- What the calls read of a file: the bytes from its position on, EOI with its last byte,
and EOI with a timeout where there is nothing left. -/
structure Ends (f : File) (n : ℕ) (calls : List Byte × ℤ × Dos) : Prop where
  bytes : calls.1 = (f.data.drop f.pos).take n
  status : calls.2.1 = if f.data.length ≤ f.pos then 0x42
    else if f.data.length ≤ f.pos + n then 0x40 else 0

theorem ends_acptrs {d : Dos} (data : Data d) {f : File} (file : d.ch.f = some f)
    (fresh : ¬ Stale f) {n : ℕ} (some_ : 0 < n) :
    Ends f n (acptrs continueDirectoryListing n d) := by
  rw [← withFile_of_file file]
  by_cases more : f.pos < f.data.length
  · have clear : f.eof = false := Bool.eq_false_of_not_eq_true (fun set => fresh ⟨set, more⟩)
    obtain ⟨bytes, status⟩ := acptrs_more continueDirectoryListing data n clear more
    exact ⟨bytes, status.trans (if_neg (Nat.not_le_of_lt more)).symm⟩
  · have done := Nat.le_of_not_lt more
    obtain ⟨n, rfl⟩ := Nat.exists_eq_succ_of_ne_zero (Nat.ne_of_gt some_)
    rw [acptrs_at_end continueDirectoryListing data done n]
    refine ⟨?_, (if_pos done).symm⟩
    rw [List.drop_of_length_le done, List.take_nil]

theorem macptr_block {sdCard : Bool} {r : Regs} {h : HostFs δ} (ready : Ready sdCard h)
    (data : Data h.dos) {f : File} (file : h.dos.ch.f = some f) (fresh : ¬ Stale f)
    (carry : r.p.getLsbD 0 = false)
    (ram : InRam (start r h) (acptrs continueDirectoryListing (blockCount r.a) h.dos).1.length)
    (apart : ∀ i c, i < (acptrs continueDirectoryListing (blockCount r.a) h.dos).1.length →
      cellAt (next^[i] (start r h)) = some c → ¬ StatusCell h c) :
    ∃ r' h', handle dev command continueDirectoryListing sdCard .macptr r h = some (r', h') ∧
      AsAcptr r h (acptrs continueDirectoryListing (blockCount r.a) h.dos) r' h' := by
  have ends := ends_acptrs continueDirectoryListing data file fresh (blockCount_pos r.a)
  have moved := macptr_acptrs dev continueDirectoryListing data file fresh (r.y.toNat * 256 + r.x.toNat)
    r.a (r.p.getLsbD 0)
  have note := acptrs_setCh continueDirectoryListing data (blockCount r.a) f
  rw [withFile_of_file file] at note
  generalize acptrs continueDirectoryListing (blockCount r.a) h.dos = calls at *
  obtain ⟨bytes, s, dos⟩ := calls
  have fits : bytes.length ≤ 256 := by
    have := ends.bytes
    dsimp only at this
    rw [this, List.length_take]
    have := blockCount_le r.a
    omega
  have positive : 0 ≤ s ∧ s ≠ -2 ∧ s ≠ -3 := by
    have := ends.status
    dsimp only at this
    split at this <;> try split at this
    all_goals omega
  let after : HostFs δ := { h with dos, bus := storeAll dev false (start r h) bytes h.bus }
  have out : serve dev command continueDirectoryListing .macptr r h = (s, { r with
      x := BitVec.ofNat 8 bytes.length, y := BitVec.ofNat 8 (bytes.length / 256), p := r.p &&& 0xFE },
      after) := by
    unfold serve
    dsimp only
    rw [if_pos rfl, moved]
    dsimp only
    rw [if_neg positive.2.1, if_neg positive.2.2, carry]
    rfl
  have quiet : dos.errorNote = none := by
    obtain ⟨c, same⟩ := note
    exact (congrArg Dos.errorNote same).trans ready.note
  obtain ⟨sp, pc, handled⟩ :=
    handle_served dev command continueDirectoryListing ready out positive.1 quiet
  obtain ⟨others, stored⟩ := storeAll_bytes dev bytes
    (show h.bus.ramBank = (start r h).ramBank from rfl) ram
  refine ⟨_, _, handled, ?_⟩
  constructor
  case drive =>
    unfold HostFs.setKernalStatus
    split <;> rfl
  case count => exact count_registers fits
  case supported =>
    change (r.p &&& 0xFE).getLsbD 0 = false
    rw [BitVec.getLsbD_and]
    exact Bool.and_false _
  case stored =>
    intro i hi c place
    exact (value_setKernalStatus dev after _ (apart i c hi place)).trans (stored i hi c place)
  case kept =>
    intro c zero status away
    exact (value_setKernalStatus dev after _ status).trans (others c zero away)
  case status =>
    intro known c place
    rw [ramBank_setKernalStatus] at place
    exact setKernalStatus_value dev (h := after) known _ place

/-- Bytes sent to a file do not touch what a call notes, and answer with a STATUS. -/
structure Sending (d : Dos) : Prop where
  listening : d.listening = true
  channel : d.channel ≠ 15
  note : d.errorNote = none

theorem ciout_sending {d : Dos} (h : Sending d) (b : Byte) :
    0 ≤ (d.ciout command b).1 ∧ Sending (d.ciout command b).2 := by
  have kept : ∀ c, Sending (d.setCh c) := fun _ => ⟨h.listening, h.channel, h.note⟩
  unfold Dos.ciout
  rw [if_neg (by rw [h.listening]; decide)]
  split
  · refine ⟨Int.le_refl 0, ?_⟩
    dsimp only
    split
    · exact kept _
    · exact h
  · rw [if_neg h.channel]
    split
    · split
      · split
        · exact ⟨Int.le_refl 0, kept _⟩
        · exact ⟨Int.natCast_nonneg 0x40, kept _⟩
      · exact ⟨Int.natCast_nonneg 2, h⟩
    · exact ⟨Int.natCast_nonneg 2, h⟩

theorem mcioutLoop_sending (streamMode : Bool) (n : ℕ) {d : Dos} (h : Sending d) (p : Place)
    (bus : X16Bus δ) :
    0 ≤ (mcioutLoop dev command streamMode n p d bus).1 ∧
      Sending (mcioutLoop dev command streamMode n p d bus).2.2.1 := by
  induction n generalizing d p bus with
  | zero => exact ⟨Int.le_refl 0, h⟩
  | succ n ih =>
    have one := ciout_sending command h (bus.read8 dev p.addr).1
    rw [mcioutLoop]
    dsimp only
    split
    · exact one
    · exact ih one.2 _ _

/-- A MCIOUT call with CIOUT calls for the bytes at the addresses it counts: all of them, or up
to the first one that is refused. -/
structure AsCiout (r : Regs) (h : HostFs δ) (r' : Regs) (h' : HostFs δ) (n : ℕ) (s : ℤ)
    (bytes : List Byte) : Prop where
  count : r'.x.toNat + 256 * r'.y.toNat = n
  supported : r'.p.getLsbD 0 = false
  most : n ≤ blockCount r.a
  all : s = 0 → n = blockCount r.a
  read : bytes = (collect dev (r.p.getLsbD 0) n (start r h) h.bus).1
  calls : ciouts command 0 h.dos bytes = (s, h'.dos)
  ram : r.p.getLsbD 0 = false → InRam (start r h) n → bytes.length = n ∧
    ∀ i c, i < n → cellAt (next^[i] (start r h)) = some c → bytes[i]? = some (c.value h.bus)
  status : h.statusAddr ≠ 0 → ∀ c, cellAt ⟨h.statusAddr, h'.bus.ramBank⟩ = some c →
    c.value h'.bus = BitVec.ofInt 8 s

theorem mciout_block {sdCard : Bool} {r : Regs} {h : HostFs δ} (ready : Ready sdCard h)
    (listening : h.dos.listening = true) (channel : h.dos.channel ≠ 15)
    (file : h.dos.ch.f.isSome) (write : h.dos.ch.write = true) :
    ∃ r' h', handle dev command continueDirectoryListing sdCard .mciout r h = some (r', h') ∧
      ∃ n s bytes, AsCiout dev command r h r' h' n s bytes := by
  have sent := mcioutLoop_sent dev command (r.p.getLsbD 0) (blockCount r.a) (start r h) h.dos h.bus
  have sending := mcioutLoop_sending dev command (r.p.getLsbD 0) (blockCount r.a)
    ⟨listening, channel, ready.note⟩ (start r h) h.bus
  have latch : h.bus.read8 dev 0 = (h.bus.ramBank, h.bus) := congrArg (·, h.bus) h.bus.latched
  have moved : mciout dev command (r.y.toNat * 256 + r.x.toNat) r.a (r.p.getLsbD 0) h =
      let out := mcioutLoop dev command (r.p.getLsbD 0) (blockCount r.a) (start r h) h.dos h.bus
      (out.1, out.2.1, { h with dos := out.2.2.1, bus := out.2.2.2 }) := by
    unfold mciout
    rw [if_neg (by rw [listening]; decide), latch]
    dsimp only
    rw [if_pos ⟨file, write⟩]
    rfl
  generalize mcioutLoop dev command (r.p.getLsbD 0) (blockCount r.a) (start r h) h.dos h.bus = out at *
  obtain ⟨s, n, dos, bus⟩ := out
  let after : HostFs δ := { h with dos, bus }
  have out : serve dev command continueDirectoryListing .mciout r h = (s, { r with
      x := BitVec.ofNat 8 n, y := BitVec.ofNat 8 (n / 256), p := r.p &&& 0xFE }, after) := by
    have positive : 0 ≤ s := sending.1
    unfold serve
    dsimp only
    rw [if_neg (show Call.mciout ≠ Call.macptr by decide), moved]
    dsimp only
    rw [if_neg (show s ≠ -2 by omega), if_neg (show s ≠ -3 by omega)]
  obtain ⟨sp, pc, handled⟩ :=
    handle_served dev command continueDirectoryListing ready out sending.1 sending.2.note
  refine ⟨_, _, handled, n, s, (collect dev (r.p.getLsbD 0) n (start r h) h.bus).1, ?_⟩
  constructor
  case count => exact count_registers (sent.most.trans (blockCount_le r.a))
  case supported =>
    change (r.p &&& 0xFE).getLsbD 0 = false
    rw [BitVec.getLsbD_and]
    exact Bool.and_false _
  case most => exact sent.most
  case all => exact sent.all
  case read => rfl
  case calls =>
    refine sent.calls.trans ?_
    unfold HostFs.setKernalStatus
    split <;> rfl
  case ram =>
    intro plain ram
    rw [plain]
    exact collect_bytes dev n rfl ram
  case status =>
    intro known c place
    rw [ramBank_setKernalStatus] at place
    exact setKernalStatus_value dev (h := after) known _ place

/-- A MACPTR call on an open data channel, to RAM outside of address 0 and of STATUS. -/
structure Asked (sdCard : Bool) (r : Regs) (h : HostFs δ) (f : File)
    (calls : List Byte × ℤ × Dos) : Prop where
  ready : Ready sdCard h
  data : Data h.dos
  file : h.dos.ch.f = some f
  ram : InRam (start r h) calls.1.length
  apart : ∀ i c, i < calls.1.length → cellAt (next^[i] (start r h)) = some c → ¬ StatusCell h c

/-- Block calls move what byte calls do. -/
theorem block_calls (sdCard : Bool) (r : Regs) (h : HostFs δ) :
    (∀ f, let calls := acptrs continueDirectoryListing (blockCount r.a) h.dos
      Asked sdCard r h f calls → ¬ Stale f → r.p.getLsbD 0 = false →
      Ends f (blockCount r.a) calls ∧
      ∃ r' h', handle dev command continueDirectoryListing sdCard .macptr r h = some (r', h') ∧
        AsAcptr r h calls r' h') ∧
    (Ready sdCard h → h.dos.listening = true → h.dos.channel ≠ 15 → h.dos.ch.f.isSome →
      h.dos.ch.write = true →
      ∃ r' h', handle dev command continueDirectoryListing sdCard .mciout r h = some (r', h') ∧
        ∃ n s bytes, AsCiout dev command r h r' h' n s bytes) := by
  refine ⟨fun f asked fresh carry => ⟨?_, ?_⟩, mciout_block dev command continueDirectoryListing⟩
  · exact ends_acptrs continueDirectoryListing asked.data asked.file fresh (blockCount_pos r.a)
  · exact macptr_block dev command continueDirectoryListing asked.ready asked.data asked.file fresh carry
      asked.ram asked.apart

/-! ## A drive with one file -/

/-- No chip on the bus. -/
def bare : Devices Unit where
  ioRead _ io := (0x9F, io)
  ioWrite _ _ io := io

/-- A drive that knows no commands and lists no directory. -/
def noCommand (_ : List Byte) (d : Dos) : Dos := d
def noListing (d : Dos) : List Byte × Dos := ([], d)

/-- The KERNAL's signature in ROM. -/
def kernalBus : X16Bus Unit where
  ram _ := 0
  bram _ := 0
  ramBank := 0
  romBank := 0
  io := ()
  latched := rfl
  rom i :=
    if i = 0x3FF6 then 0x4D else if i = 0x3FF7 then 0x49 else if i = 0x3FF8 then 0x53
    else if i = 0x3FF9 then 0x54 else 0

/-- Channel 2 open on a file, for reading and writing, with the KERNAL in ROM and STATUS at
$0287. -/
def machine (f : File) : HostFs Unit where
  dos :=
    { error := [], errorPos := 0, errorFlag := false, errorNote := none, cmd := [], channel := 2
      listening := true, talking := true, opening := false, dirlist := [], dirlistPos := 0
      dirlistEof := true, channels := fun _ => ⟨[0x46], true, true, some f⟩ }
  bus := kernalBus
  cbdosFlags := 0
  statusAddr := 0x287

/-- A call for `count` bytes at $1000. -/
def request (count p : Byte) : Regs := { a := count, x := 0, y := 0x10, p, sp := 0xF0, pc := 0xFF44 }

theorem kernal_rom : kernalBus.peekRom 0xFFF6 = 0x4D ∧ kernalBus.peekRom 0xFFF7 = 0x49 ∧
    kernalBus.peekRom 0xFFF8 = 0x53 ∧ kernalBus.peekRom 0xFFF9 = 0x54 := by decide

theorem start_request (count p : Byte) (f : File) : start (request count p) (machine f) = ⟨0x1000, 0⟩ :=
  congrArg (Place.mk · 0) (show (0x10 : Byte).toNat * 256 + (0 : Byte).toNat = 0x1000 by decide)

theorem ready_machine (f : File) : Ready false (machine f) :=
  ⟨.inl kernal_rom, rfl, rfl⟩

theorem data_machine (f : File) : Data (machine f).dos :=
  ⟨rfl, show (2 : ℕ) ≠ 15 by decide, rfl, show ¬ some (0x46 : Byte) = some 0x24 by decide⟩

theorem statusCell_machine {f : File} {c : Cell} (h : StatusCell (machine f) c) : c = .low 0x287 := by
  obtain ⟨bank, here⟩ := h
  exact (Option.some.inj here).symm

/-- Calls of up to three bytes at $1000. -/
theorem asked_machine (f : File) (count p : Byte) (calls : List Byte × ℤ × Dos)
    (few : calls.1.length ≤ 3) : Asked false (request count p) (machine f) f calls where
  ready := ready_machine f
  data := data_machine f
  file := rfl
  ram := by
    have three : InRam ⟨0x1000, 0⟩ 3 := by decide
    rw [start_request]
    exact fun i hi => three i (hi.trans_le few)
  apart := by
    intro i c hi here status
    obtain rfl := statusCell_machine status
    have three : ∀ i, i < 3 → cellAt (next^[i] ⟨0x1000, 0⟩) ≠ some (.low 0x287) := by decide
    rw [start_request] at here
    exact three i (hi.trans_le few) here

/-- Three bytes read to the end of the file, and sent behind it. -/
theorem three_bytes :
    let h := machine ⟨[0x41, 0x42, 0x43], 0, false, false, 100⟩
    let r := request 0 0
    let calls := acptrs noListing (blockCount r.a) h.dos
    (Ends ⟨[0x41, 0x42, 0x43], 0, false, false, 100⟩ (blockCount r.a) calls ∧
      ∃ r' h', handle bare noCommand noListing false .macptr r h = some (r', h') ∧
        AsAcptr r h calls r' h') ∧
    ∃ r' h', handle bare noCommand noListing false .mciout r h = some (r', h') ∧
      ∃ n s bytes, AsCiout bare noCommand r h r' h' n s bytes := by
  intro h r calls
  have few : calls.1.length ≤ 3 := by decide
  obtain ⟨reads, sends⟩ := block_calls bare noCommand noListing false r h
  exact ⟨reads _ (asked_machine _ 0 0 calls few) (fun stale => Bool.false_ne_true stale.1) (by decide),
    sends (ready_machine _) rfl (show (2 : ℕ) ≠ 15 by decide) rfl rfl⟩

/-- A block call as it would be with EOI for the last byte of the file only. -/
def EoiLast (r : Regs) (h : HostFs Unit) (f : File) : Prop :=
  let calls := acptrs noListing (blockCount r.a) h.dos
  ∃ r' h', handle bare noCommand noListing false .macptr r h = some (r', h') ∧
    AsAcptr r h calls r' h' ∧
    ((h'.bus.ram 0x287).getLsbD 6 = true ↔
      0 < calls.1.length ∧ f.pos + calls.1.length = f.data.length)

/-- A call that is asked for and does not come out so. -/
def Differs (count p : Byte) (f : File) : Prop :=
  Asked false (request count p) (machine f) f (acptrs noListing (blockCount count) (machine f).dos) ∧
    ¬ EoiLast (request count p) (machine f) f

/-- An empty file reads with EOI, a call with carry set stores to one address, and a stream that
was at its end reads on only in blocks. -/
theorem blocks_apart :
    Differs 1 0 ⟨[], 0, false, false, 100⟩ ∧ Differs 2 1 ⟨[0x41, 0x42], 0, false, false, 100⟩ ∧
      Differs 1 0 ⟨[0x41], 0, true, false, 100⟩ := by
  refine ⟨⟨asked_machine _ _ _ _ (by decide), ?_⟩, ⟨asked_machine _ _ _ _ (by decide), ?_⟩,
    ⟨asked_machine _ _ _ _ (by decide), ?_⟩⟩
  · rintro ⟨r', h', handled, -, eoi⟩
    have status := congrArg (Option.map (fun out => out.2.bus.ram 0x287)) handled
    have value : h'.bus.ram 0x287 = 0x42 := (Option.some.inj status).symm.trans (by decide)
    have set : (h'.bus.ram 0x287).getLsbD 6 = true := by
      rw [value]
      decide
    exact absurd (eoi.mp set).1 (by decide)
  · rintro ⟨r', h', handled, same, -⟩
    have byte := congrArg (Option.map (fun out => out.2.bus.ram 0x1000)) handled
    have value : h'.bus.ram 0x1000 = 0x42 := (Option.some.inj byte).symm.trans (by decide)
    have first := same.stored 0 (by decide) (.low 0x1000) (by decide)
    exact absurd (value.symm.trans first) (by decide)
  · rintro ⟨r', h', handled, same, -⟩
    have count := congrArg (Option.map (fun out => out.1.x.toNat + 256 * out.1.y.toNat)) handled
    have value : r'.x.toNat + 256 * r'.y.toNat = 1 := (Option.some.inj count).symm.trans (by decide)
    exact absurd (value.symm.trans same.count) (by decide)

end Mmemu.Guarantees.HostFsBlocks
