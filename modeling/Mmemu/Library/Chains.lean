import Mathlib.Data.List.Nodup
import Mathlib.Data.BitVec
import Mathlib.Tactic.Common

/-!
# Chains of lines in memory

A program as a 16-bit interpreter keeps it: each line is the address of the next
one, its number, its text and a zero, and a zero address stands after the last.
A stream of bytes is loaded at an address, as far as memory goes.
-/
namespace Mmemu.Library.LineChain

abbrev Byte := BitVec 8

/-- A number and a text. -/
abbrev Line := BitVec 16 × List Byte

def loaded (start : ℕ) (bytes : List Byte) (a : ℕ) : Option Byte :=
  if start ≤ a ∧ a < 2 ^ 16 then bytes[a - start]? else none

def lineBytes (next : BitVec 16) (line : Line) : List Byte :=
  [next.setWidth 8, (next >>> 8).setWidth 8, line.1.setWidth 8, (line.1 >>> 8).setWidth 8] ++
    line.2 ++ [0]

def size (lines : List Line) : ℕ := (lines.map fun line => line.2.length + 5).sum

/-- These bytes lie in memory from an address on. -/
def Holds (mem : ℕ → Option Byte) (a : ℕ) (bytes : List Byte) : Prop :=
  ∀ i < bytes.length, mem (a + i) = bytes[i]?

/-- From an address on, the links visit these lines in order, each link being the
address just past the zero that ends its line, up to a zero link. -/
def Chain (mem : ℕ → Option Byte) : ℕ → List Line → Prop
  | a, [] => Holds mem a [0, 0]
  | a, line :: rest =>
    ∃ next : BitVec 16, Holds mem a (lineBytes next line) ∧ 0 ∉ line.2 ∧ next ≠ 0 ∧
      next.toNat = a + (line.2.length + 5) ∧ Chain mem next.toNat rest

/-- The same with texts of any bytes: a link points past the zero behind the text. -/
def Links (mem : ℕ → Option Byte) : ℕ → List Line → Prop
  | a, [] => Holds mem a [0, 0]
  | a, line :: rest =>
    ∃ next : BitVec 16, Holds mem a (lineBytes next line) ∧ next ≠ 0 ∧
      next.toNat = a + (line.2.length + 5) ∧ Links mem next.toNat rest

theorem chain_iff_links {mem : ℕ → Option Byte} {a : ℕ} {lines : List Line} :
    Chain mem a lines ↔ Links mem a lines ∧ ∀ line ∈ lines, 0 ∉ line.2 := by
  induction lines generalizing a with
  | nil => simp [Chain, Links]
  | cons line rest ih =>
    simp only [Chain, Links, ih, List.forall_mem_cons]
    constructor
    · rintro ⟨next, holds, plain, nonzero, past, links, others⟩
      exact ⟨⟨next, holds, nonzero, past, links⟩, plain, others⟩
    · rintro ⟨⟨next, holds, nonzero, past, links⟩, plain, others⟩
      exact ⟨next, holds, plain, nonzero, past, links, others⟩

@[simp] theorem size_nil : size [] = 0 := rfl

@[simp] theorem size_cons (line : Line) (rest : List Line) :
    size (line :: rest) = line.2.length + 5 + size rest := by
  simp [size]

@[simp] theorem length_lineBytes (next : BitVec 16) (line : Line) :
    (lineBytes next line).length = line.2.length + 5 := by
  simp [lineBytes]

/-- A chain ends within the stream and within memory. -/
theorem Links.fits {start a : ℕ} {bytes : List Byte} {lines : List Line} (above : start ≤ a)
    (h : Links (loaded start bytes) a lines) :
    a + size lines + 2 ≤ start + bytes.length ∧ a + size lines + 2 ≤ 2 ^ 16 := by
  induction lines generalizing a with
  | nil =>
    have last := h 1 (by decide)
    unfold loaded at last
    split at last
    · rename_i inside
      obtain ⟨bound, _⟩ := List.getElem?_eq_some_iff.mp last
      rw [size_nil]
      omega
    · cases last
  | cons line rest ih =>
    obtain ⟨next, _, _, past, links⟩ := h
    have later := ih (by omega) links
    rw [size_cons]
    omega

theorem Chain.fits {start a : ℕ} {bytes : List Byte} {lines : List Line} (above : start ≤ a)
    (h : Chain (loaded start bytes) a lines) :
    a + size lines + 2 ≤ start + bytes.length ∧ a + size lines + 2 ≤ 2 ^ 16 :=
  (chain_iff_links.mp h).1.fits above

/-! ## Laying a program out -/

/-- The lines one after the other, from an address on. -/
def layOut : ℕ → List Line → List Byte
  | _, [] => []
  | a, line :: rest =>
    lineBytes (BitVec.ofNat 16 (a + (line.2.length + 5))) line ++
      layOut (a + (line.2.length + 5)) rest

theorem length_layOut (a : ℕ) (lines : List Line) : (layOut a lines).length = size lines := by
  induction lines generalizing a with
  | nil => rfl
  | cons line rest ih => rw [layOut, List.length_append, ih, length_lineBytes, size_cons]

theorem holds_of_drop {start a : ℕ} {bytes part rest : List Byte} (above : start ≤ a)
    (fits : a + part.length ≤ 2 ^ 16) (h : bytes.drop (a - start) = part ++ rest) :
    Holds (loaded start bytes) a part := by
  intro i bound
  have inside : start ≤ a + i ∧ a + i < 2 ^ 16 := by omega
  rw [loaded, if_pos inside, Nat.sub_add_comm above, ← List.getElem?_drop, h,
    List.getElem?_append_left bound]

/-- A program that is laid out with a zero link after it has its links in place, if it fits. -/
theorem links_layOut {start a : ℕ} {bytes : List Byte} {lines : List Line} (above : start ≤ a)
    (h : bytes.drop (a - start) = layOut a lines ++ [0, 0])
    (fits : a + size lines + 2 ≤ 2 ^ 16) : Links (loaded start bytes) a lines := by
  induction lines generalizing a with
  | nil => exact holds_of_drop above fits ((h.trans (List.nil_append _)).trans (List.append_nil _).symm)
  | cons line rest ih =>
    rw [size_cons] at fits
    rw [layOut, List.append_assoc] at h
    have past : (BitVec.ofNat 16 (a + (line.2.length + 5))).toNat = a + (line.2.length + 5) := by
      rw [BitVec.toNat_ofNat]
      exact Nat.mod_eq_of_lt (by omega)
    refine ⟨BitVec.ofNat 16 (a + (line.2.length + 5)), ?_, ?_, past, ?_⟩
    · exact holds_of_drop above (by rw [length_lineBytes]; omega) h
    · intro zero
      rw [zero] at past
      simp at past
    · rw [past]
      refine ih (by omega) ?_ (by omega)
      rw [Nat.sub_add_comm above, ← List.drop_drop, h,
        List.drop_left' (length_lineBytes ..)]

theorem links_layOut_iff (start : ℕ) (lines : List Line) :
    Links (loaded start (layOut start lines ++ [0, 0])) start lines ↔
      start + size lines + 2 ≤ 2 ^ 16 := by
  constructor
  · exact fun h => (h.fits (Nat.le_refl start)).2
  · intro fits
    refine links_layOut (Nat.le_refl start) ?_ fits
    rw [Nat.sub_self, List.drop_zero]

theorem chain_layOut_iff (start : ℕ) (lines : List Line) :
    Chain (loaded start (layOut start lines ++ [0, 0])) start lines ↔
      (∀ line ∈ lines, 0 ∉ line.2) ∧ start + size lines + 2 ≤ 2 ^ 16 := by
  rw [chain_iff_links, links_layOut_iff]
  exact and_comm

end Mmemu.Library.LineChain
