import Mmemu.Library.Chains
import Mmemu.Library.Runs
import Mmemu.Source.VirtualIec

/-!
# Directory listings as programs

A drive sends its directory as a program, whose lines are linked by address. The
listing of a DOS on an image is such a chain as long as it fits memory and no
name holds a zero. The virtual drive's never is one: it puts no zero link after
its last line.
-/
namespace Mmemu.Guarantees.DirectoryListings
open Mmemu.Library.LineChain Mmemu.Source.CbmDos Mmemu.Source.VirtualIec

/-- A stream whose first two bytes are its load address, and which is there a chain
of these lines. -/
def IsProgram (stream : Bytes) (lines : List Line) : Prop :=
  ∃ low high rest, stream = low :: high :: rest ∧
    Chain (loaded (low.toNat + 256 * high.toNat) rest) (low.toNat + 256 * high.toNat) lines

/-! ## The DOS on an image -/

section Image

variable {δ : Type} [CbmSectorDisk δ]

def shown (disk : δ) (pattern : Bytes) : List CbmDirEntry :=
  (CbmSectorDisk.getDirectory disk).filter fun e => pattern.isEmpty || wildcard pattern e.filename

/-- The lines of a directory: the header, the entries shown and the blocks free. -/
def directoryLines (d : CbmImageDos δ) (pattern : Bytes) : List Line :=
  (0, [0x12] ++ str "\"" ++ (CbmSectorDisk.getDiskName d.disk ++ List.replicate 16 (chr ' ')).take 16 ++
      str "\" " ++ CbmSectorDisk.getDiskId d.disk ++ str " " ++ CbmSectorDisk.getDosType d.disk) ::
    (shown d.disk pattern).map (fun e => (e.sizeBlocks, CbmImageDos.entryText e)) ++
    [(CbmSectorDisk.getFreeBlocks d.disk, str "BLOCKS FREE.             ")]

theorem directoryLine_eq (a : ℕ) (out : Bytes) (line : Line) :
    CbmImageDos.directoryLine (BitVec.ofNat 16 a, out) line.1 line.2 =
      (BitVec.ofNat 16 (a + (line.2.length + 5)),
        out ++ lineBytes (BitVec.ofNat 16 (a + (line.2.length + 5))) line) := by
  have next : BitVec.ofNat 16 a + BitVec.ofNat 16 (2 + 2 + line.2.length + 1) =
      BitVec.ofNat 16 (a + (line.2.length + 5)) := by
    rw [← BitVec.ofNat_add]
    congr 1
    omega
  simp only [CbmImageDos.directoryLine, next, lineBytes, List.append_assoc]

theorem foldl_directoryLine (a : ℕ) (out : Bytes) (lines : List Line) :
    lines.foldl (fun state line => CbmImageDos.directoryLine state line.1 line.2)
        (BitVec.ofNat 16 a, out) =
      (BitVec.ofNat 16 (a + size lines), out ++ layOut a lines) := by
  induction lines generalizing a out with
  | nil => simp [layOut]
  | cons line rest ih =>
    rw [List.foldl_cons, directoryLine_eq, ih, size_cons, layOut, List.append_assoc, Nat.add_assoc]

theorem directory_eq (d : CbmImageDos δ) (pattern : Bytes) :
    d.directory pattern = 0x01 :: 0x04 :: (layOut 0x0401 (directoryLines d pattern) ++ [0, 0]) := by
  have run := foldl_directoryLine 0x0401 [0x01, 0x04] (directoryLines d pattern)
  rw [directoryLines, List.foldl_append, List.foldl_cons, List.foldl_cons, List.foldl_nil,
    List.foldl_map] at run
  exact congrArg (fun state => state.2 ++ [0, 0]) run

theorem directory_program_iff (d : CbmImageDos δ) (pattern : Bytes) :
    IsProgram (d.directory pattern) (directoryLines d pattern) ↔
      (∀ line ∈ directoryLines d pattern, 0 ∉ line.2) ∧
        0x0401 + size (directoryLines d pattern) + 2 ≤ 2 ^ 16 := by
  rw [← chain_layOut_iff]
  constructor
  · rintro ⟨low, high, rest, stream, chain⟩
    rw [directory_eq] at stream
    cases stream
    exact chain
  · exact fun chain => ⟨0x01, 0x04, _, directory_eq d pattern, chain⟩

end Image

/-! ## The virtual drive -/

theorem length_foldl_addLine (buffer : Bytes) (lines : List Line) :
    (lines.foldl addLine buffer).length = buffer.length + size lines := by
  induction lines generalizing buffer with
  | nil => rfl
  | cons line rest ih =>
    rw [List.foldl_cons, ih, size_cons, addLine]
    simp only [List.length_append, List.length_cons, List.length_nil]
    omega

theorem length_fixLinks (turns : ℕ) (buffer : Bytes) (pos : ℕ) :
    (fixLinks turns buffer pos).length = buffer.length := by
  induction turns generalizing buffer pos with
  | zero => rfl
  | succ turns ih =>
    rw [fixLinks]
    dsimp only
    have set (link : BitVec 16) : (setLink buffer pos link).length = buffer.length := by
      rw [setLink, List.length_set, List.length_set]
    split
    · rfl
    · split
      · rfl
      · split
        · exact set 0
        · rw [ih, set]

/-- The listing is its load address and its lines, and nothing after them. -/
theorem length_listing (l : Listed) : (listing l).length = 2 + size (listingLines l) := by
  rw [listing, length_fixLinks, length_foldl_addLine]
  rfl

theorem listing_no_program (l : Listed) : ¬ IsProgram (listing l) (listingLines l) := by
  rintro ⟨low, high, rest, stream, chain⟩
  have length := length_listing l
  rw [stream, List.length_cons, List.length_cons] at length
  have fits := (chain.fits (Nat.le_refl _)).1
  omega

/-- A listing of the virtual drive is never a program; one of a DOS on an image is, up to
the size of memory. -/
theorem listing_never_program {δ : Type} [CbmSectorDisk δ] (l : Listed) (d : CbmImageDos δ)
    (pattern : Bytes) :
    ¬ IsProgram (listing l) (listingLines l) ∧
      (IsProgram (d.directory pattern) (directoryLines d pattern) ↔
        (∀ line ∈ directoryLines d pattern, 0 ∉ line.2) ∧
          0x0401 + size (directoryLines d pattern) + 2 ≤ 2 ^ 16) :=
  ⟨listing_no_program l, directory_program_iff d pattern⟩

/-- Without a disk the listing has two lines. -/
theorem empty_listing_no_program :
    ¬ IsProgram (listing (listed (fun _ => none) [])) (listingLines (listed (fun _ => none) [])) :=
  listing_no_program _

end Mmemu.Guarantees.DirectoryListings
