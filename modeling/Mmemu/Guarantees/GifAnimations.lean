import Mathlib.Algebra.BigOperators.Group.List.Basic
import Mmemu.Library.BitStream
import Mmemu.Library.Lzw
import Mmemu.Source.GifWriter

/-!
# Codes in sub-blocks

What the bit writer leaves in a file reads back, sub-block by sub-block, as the bits that
were put, filled up with zeros to a whole byte.
-/
namespace Mmemu.Guarantees.GifBlocks

open Source.GifWriter Library.BitStream

/-- The data of sub-blocks up to their terminator, and what follows it. -/
def readBlocks : List Byte → Option (List Byte × List Byte)
  | [] => none
  | size :: rest =>
    if size = 0 then some ([], rest)
    else if rest.length < size.toNat then none
    else
      (readBlocks (rest.drop size.toNat)).map fun next => (rest.take size.toNat ++ next.1, next.2)
termination_by bytes => bytes.length
decreasing_by
  rw [List.length_drop, List.length_cons]
  omega

theorem readBlocks_end (rest : List Byte) : readBlocks (0 :: rest) = some ([], rest) := by
  rw [readBlocks, if_pos rfl]

/-- A sub-block of at most 255 bytes. -/
theorem readBlocks_block (block : List Byte) (nonempty : block ≠ []) (short : block.length ≤ 255)
    (rest : List Byte) : readBlocks (BitVec.ofNat 8 block.length :: block ++ rest) =
      (readBlocks rest).map fun next => (block ++ next.1, next.2) := by
  have pos := List.length_pos_iff.mpr nonempty
  have size : (BitVec.ofNat 8 block.length).toNat = block.length := by
    rw [BitVec.toNat_ofNat]
    exact Nat.mod_eq_of_lt (by omega)
  have nonzero : BitVec.ofNat 8 block.length ≠ 0 := by
    intro zero
    have := congrArg BitVec.toNat zero
    rw [size] at this
    exact absurd this (Nat.ne_of_gt pos)
  have enough : ¬(block ++ rest).length < block.length := by
    rw [List.length_append]
    omega
  rw [List.cons_append, readBlocks, if_neg nonzero, size, if_neg enough, List.drop_left, List.take_left]

/-- Whole sub-blocks. -/
def blocks (full : List (List Byte)) : List Byte := full.flatMap fun b => BitVec.ofNat 8 b.length :: b

theorem readBlocks_blocks (full : List (List Byte)) (whole : ∀ b ∈ full, b.length = 255)
    (rest : List Byte) : readBlocks (blocks full ++ rest) =
      (readBlocks rest).map fun next => (full.flatten ++ next.1, next.2) := by
  induction full with
  | nil => simp [blocks]
  | cons b full ih =>
    have length := whole b List.mem_cons_self
    have nonempty : b ≠ [] := by
      rintro rfl
      cases length
    rw [blocks, List.flatMap_cons, List.append_assoc, readBlocks_block b nonempty (by omega)]
    rw [← blocks, ih fun b' inside => whole b' (List.mem_cons_of_mem b inside)]
    rw [Option.map_map, List.flatten_cons]
    congr 1
    funext next
    simp

/-! ## The writer -/

/-- The bytes `data` have gone into sub-blocks behind `front`. -/
structure Framed (front : List Byte) (bw : BitWriter) (full : List (List Byte)) (data : List Byte) :
    Prop where
  whole : ∀ b ∈ full, b.length = 255
  out : bw.out = front ++ blocks full
  data : data = full.flatten ++ bw.block
  short : bw.block.length < 255

section Writer

variable {front : List Byte} {bw : BitWriter} {full : List (List Byte)} {data : List Byte}

theorem Framed.byte (h : Framed front bw full data) (b : Byte) :
    ∃ full', Framed front (bw.byte b) full' (data ++ [b]) := by
  have length : (bw.block ++ [b]).length = bw.block.length + 1 := by simp
  unfold BitWriter.byte
  dsimp only
  split
  next filled =>
    have nonempty : bw.block ++ [b] ≠ [] := by simp
    refine ⟨full ++ [bw.block ++ [b]], ?_, ?_, ?_, ?_⟩
    · intro b' inside
      rcases List.mem_append.mp inside with old | new
      · exact h.whole b' old
      · rw [List.mem_singleton.mp new, filled]
    · simp [BitWriter.flushBlock, h.out, blocks]
    · simp [BitWriter.flushBlock, h.data]
    · simp [BitWriter.flushBlock]
  next open_ =>
    refine ⟨full, h.whole, h.out, ?_, ?_⟩
    · rw [h.data, List.append_assoc]
    · have := h.short
      dsimp only
      omega

/-- The terminated sub-blocks read back as their bytes. -/
theorem Framed.terminated (h : Framed front bw full data) :
    ∃ body, bw.flushBlock.out ++ [0] = front ++ body ∧
      ∀ rest, readBlocks (body ++ rest) = some (data, rest) := by
  unfold BitWriter.flushBlock
  split
  next empty =>
    refine ⟨blocks full ++ [0], by rw [h.out, List.append_assoc], fun rest => ?_⟩
    rw [List.append_assoc, readBlocks_blocks full h.whole, List.singleton_append, readBlocks_end, h.data,
      empty]
    rfl
  next open_ =>
    refine ⟨blocks full ++ (BitVec.ofNat 8 bw.block.length :: bw.block ++ [0]), ?_, fun rest => ?_⟩
    · rw [h.out]
      simp only [List.append_assoc]
    · have short := h.short
      rw [List.append_assoc, readBlocks_blocks full h.whole, List.append_assoc,
        readBlocks_block bw.block open_ (by omega), List.singleton_append, readBlocks_end, h.data]
      simp

/-- The bits `bits` have been put behind `front`. -/
structure Holds (front : List Byte) (bw : BitWriter) (bits : List Bool) : Prop where
  framed : ∃ full data, Framed front bw full data ∧ bits = byteBits data ++ bitsOf bw.nbits bw.acc
  fits : bw.acc < 2 ^ bw.nbits

theorem Holds.round {bits : List Bool} (h : Holds front bw bits) (byte : 8 ≤ bw.nbits) :
    Holds front bw.round bits := by
  obtain ⟨full, data, framed, eq⟩ := h.framed
  obtain ⟨full', framed'⟩ := framed.byte (BitVec.ofNat 8 bw.acc)
  have width : bw.nbits = 8 + (bw.nbits - 8) := by omega
  constructor
  · refine ⟨full', data ++ [BitVec.ofNat 8 bw.acc], ⟨framed'.whole, framed'.out, framed'.data, framed'.short⟩, ?_⟩
    have split := bitsOf_append 8 (bw.nbits - 8) bw.acc
    rw [← width, ← Nat.shiftRight_eq_div_pow] at split
    rw [eq, split, byteBits_append, byteBits_ofNat, List.append_assoc]
    rfl
  · change bw.acc >>> 8 < 2 ^ (bw.nbits - 8)
    have fits := h.fits
    rw [width, Nat.pow_add] at fits
    rw [Nat.shiftRight_eq_div_pow]
    exact Nat.div_lt_of_lt_mul fits

theorem Holds.rounds {bits : List Bool} (n : ℕ) (h : Holds front bw bits) (bytes : 8 * n ≤ bw.nbits) :
    Holds front (BitWriter.round^[n] bw) bits ∧ (BitWriter.round^[n] bw).nbits = bw.nbits - 8 * n := by
  induction n generalizing bw with
  | zero => exact ⟨h, rfl⟩
  | succ n ih =>
    obtain ⟨holds, nbits⟩ := ih (h.round (by omega)) (show 8 * n ≤ bw.nbits - 8 by omega)
    refine ⟨holds, nbits.trans ?_⟩
    change bw.nbits - 8 - 8 * n = _
    omega

/-- A code puts its bits behind those before it. -/
theorem Holds.put {bits : List Bool} (h : Holds front bw bits) {code width : ℕ} (fits : code < 2 ^ width) :
    Holds front (bw.put code width) (bits ++ bitsOf width code) ∧ (bw.put code width).nbits < 8 := by
  obtain ⟨full, data, framed, eq⟩ := h.framed
  have joined : Holds front
      { bw with acc := bw.acc ||| code <<< bw.nbits, nbits := bw.nbits + width } (bits ++ bitsOf width code) := by
    constructor
    · refine ⟨full, data, ⟨framed.whole, framed.out, framed.data, framed.short⟩, ?_⟩
      rw [eq, List.append_assoc]
      exact congrArg (byteBits data ++ ·) (bitsOf_or_shiftLeft h.fits width code).symm
    · refine Nat.or_lt_two_pow (h.fits.trans_le (Nat.pow_le_pow_right Nat.two_pos (Nat.le_add_right ..))) ?_
      rw [Nat.shiftLeft_eq, Nat.pow_add, Nat.mul_comm]
      exact Nat.mul_lt_mul_of_pos_left fits (Nat.two_pow_pos _)
  obtain ⟨holds, nbits⟩ := joined.rounds ((bw.nbits + width) / 8) (Nat.mul_div_le ..)
  refine ⟨holds, ?_⟩
  change (BitWriter.round^[_] _).nbits < 8
  rw [nbits]
  dsimp only
  omega

/-- A finished stream is the bits that were put and zeros up to a whole byte. -/
theorem Holds.finish {bits : List Bool} (h : Holds front bw bits) (small : bw.nbits < 8) :
    ∃ body data pad, bw.finish = front ++ body ∧
      (∀ rest, readBlocks (body ++ rest) = some (data, rest)) ∧
      byteBits data = bits ++ bitsOf pad 0 ∧ pad < 8 := by
  obtain ⟨full, data, framed, eq⟩ := h.framed
  unfold BitWriter.finish
  dsimp only
  split
  next left =>
    obtain ⟨full', framed'⟩ := framed.byte (BitVec.ofNat 8 bw.acc)
    obtain ⟨body, out, reads⟩ := framed'.terminated
    refine ⟨body, data ++ [BitVec.ofNat 8 bw.acc], 8 - bw.nbits, out, reads, ?_, by omega⟩
    have filled := bitsOf_of_lt h.fits (8 - bw.nbits)
    rw [show bw.nbits + (8 - bw.nbits) = 8 by omega] at filled
    rw [byteBits_append, byteBits_ofNat, filled, eq, List.append_assoc]
  next done =>
    obtain ⟨body, out, reads⟩ := framed.terminated
    have zero : bw.nbits = 0 := by omega
    refine ⟨body, data, 0, out, reads, ?_, by omega⟩
    rw [eq, zero]
    simp [bitsOf]

end Writer

end Mmemu.Guarantees.GifBlocks

/-!
# The codes of a frame

The encoder and a reader of the GIF89a rules step together: the reader's table is one
string behind, and both change the width of the codes behind the same code. Only behind the
last code does the reader change alone.
-/
namespace Mmemu.Guarantees.GifCodes

open Source.GifWriter Library.BitStream Library.Lzw GifBlocks

/-- The LZW of the GIF89a rules for a code size; codes have at most 12 bits. -/
def gif (minCode : ℕ) : Format where
  symbols := 2 ^ minCode
  firstWidth := minCode + 1
  lastWidth := 12

/-- As many strings as a table has room for. -/
def room (minCode : ℕ) : ℕ := (gif minCode).room

/-- The table's strings when the string number `i` of a frame is written. -/
def entries (minCode i : ℕ) : ℕ := i % (room minCode + 1)

/-- The width of the codes behind so many strings: the bits of the reader's next code. -/
def widthAt (minCode entries : ℕ) : ℕ := min 12 (Nat.size ((gif minCode).base + (entries - 1)))

/-- The bits of the string number `i`, with the clear code behind a full table. -/
def stringBits (minCode i : ℕ) : ℕ :=
  if entries minCode i = room minCode then 2 * widthAt minCode (entries minCode i)
  else widthAt minCode (entries minCode i)

/-- The bits of all codes of a frame of `n` strings, with its first clear code and its end code. -/
def streamBits (minCode n : ℕ) : ℕ :=
  minCode + 1 + ((List.range (n - 1)).map (stringBits minCode)).sum + 2 * widthAt minCode (entries minCode (n - 1))

/-- The last of `n` strings makes the reader's codes wider, and the codes end with a byte: there
is not the bit left that the reader then wants. -/
def Cut (minCode n : ℕ) : Prop :=
  0 < entries minCode (n - 1) ∧ widthAt minCode (entries minCode (n - 1)) < 12 ∧
    (gif minCode).base + entries minCode (n - 1) = 2 ^ widthAt minCode (entries minCode (n - 1)) ∧
    8 ∣ streamBits minCode n

instance (minCode n : ℕ) : Decidable (Cut minCode n) := by
  unfold Cut
  infer_instance

/-! ## Widths -/

section Widths

variable {m : ℕ}

theorem base_lt (small : 2 ≤ m) : (gif m).base < 2 ^ (m + 1) := by
  have : 2 ^ 2 ≤ 2 ^ m := Nat.pow_le_pow_right Nat.two_pos small
  change 2 ^ m + 2 < 2 ^ (m + 1)
  omega

theorem widthAt_le (t : ℕ) : widthAt m t ≤ 12 := Nat.min_le_left ..

theorem widthAt_pos (t : ℕ) : 0 < widthAt m t :=
  Nat.lt_min.mpr ⟨by decide, Nat.size_pos.mpr (Nat.add_pos_left (Nat.succ_pos _) _)⟩

theorem widthAt_zero (small : 2 ≤ m) (large : m ≤ 8) : widthAt m 0 = m + 1 := by
  have size : Nat.size ((gif m).base + (0 - 1)) = m + 1 := by
    refine Nat.le_antisymm (Nat.size_le.mpr (base_lt small)) (Nat.lt_size.mpr ?_)
    exact Nat.le_add_right ..
  rw [widthAt, size]
  omega

/-- The codes can name every string of the reader's table. -/
theorem lt_two_pow_widthAt {t : ℕ} (narrow : widthAt m t < 12) : (gif m).base + (t - 1) < 2 ^ widthAt m t := by
  have same : widthAt m t = Nat.size ((gif m).base + (t - 1)) := by
    unfold widthAt at narrow ⊢
    omega
  rw [same]
  exact Nat.lt_size_self _

theorem room_eq (large : m ≤ 8) : (gif m).base + room m = 4096 := by
  have : 2 ^ m ≤ 2 ^ 8 := Nat.pow_le_pow_right Nat.two_pos large
  change 2 ^ m + 2 + (2 ^ 12 - (2 ^ m + 2)) = 4096
  omega

/-- Codes of one string more. -/
theorem widthAt_succ (small : 2 ≤ m) (large : m ≤ 8) (t : ℕ) :
    widthAt m (t + 1) =
      if (gif m).base + t = 2 ^ widthAt m t ∧ widthAt m t < 12 then widthAt m t + 1 else widthAt m t := by
  cases t with
  | zero =>
    have not_full : ¬((gif m).base + 0 = 2 ^ widthAt m 0 ∧ widthAt m 0 < 12) := by
      rw [widthAt_zero small large]
      exact fun h => Nat.ne_of_lt (base_lt small) h.1
    rw [if_neg not_full]
    rfl
  | succ t =>
    have grows : Nat.size ((gif m).base + t) ≤ Nat.size ((gif m).base + (t + 1)) := Nat.size_le_size (by omega)
    by_cases narrow : widthAt m (t + 1) < 12
    · have below := lt_two_pow_widthAt narrow
      have same : widthAt m (t + 1) = Nat.size ((gif m).base + t) := by
        unfold widthAt at narrow ⊢
        simp only [Nat.add_sub_cancel] at narrow ⊢
        omega
      rw [Nat.add_sub_cancel] at below
      split
      next full =>
        have size : Nat.size ((gif m).base + (t + 1)) = widthAt m (t + 1) + 1 := by
          rw [full.1, Nat.size_pow]
        unfold widthAt at narrow size ⊢
        simp only [Nat.add_sub_cancel] at narrow size ⊢
        omega
      next fits =>
        have size : Nat.size ((gif m).base + (t + 1)) ≤ widthAt m (t + 1) :=
          Nat.size_le.mpr (by
            have := fun full => fits ⟨full, narrow⟩
            omega)
        have next : widthAt m (t + 1 + 1) = min 12 (Nat.size ((gif m).base + (t + 1))) := rfl
        omega
    · rw [if_neg (fun h => narrow h.2)]
      have wide : widthAt m (t + 1) = min 12 (Nat.size ((gif m).base + t)) := rfl
      have next : widthAt m (t + 1 + 1) = min 12 (Nat.size ((gif m).base + (t + 1))) := rfl
      omega

/-- Each code has room for every string of the writer's table. -/
theorem code_fits {t : ℕ} (large : m ≤ 8) (bound : t ≤ room m) {code : ℕ} (below : code < (gif m).base + t) :
    code < 2 ^ widthAt m t := by
  by_cases narrow : widthAt m t < 12
  · have := lt_two_pow_widthAt narrow
    omega
  · have wide : widthAt m t = 12 := Nat.le_antisymm (widthAt_le t) (Nat.not_lt.mp narrow)
    have := room_eq large
    rw [wide]
    omega

end Widths

/-! ## The dictionary -/

section Dictionary

variable {m : ℕ} {table : Table} {dict : ℕ → Option ℕ}

theorem key_eq {code a : ℕ} (small : a < 256) : code <<< 8 ||| a = code * 256 + a := by
  rw [← Nat.shiftLeft_add_eq_or_of_lt (show a < 2 ^ 8 from small), Nat.shiftLeft_eq]

/-- A dictionary that knows the strings of a table. -/
structure Dict (m : ℕ) (table : Table) (dict : ℕ → Option ℕ) : Prop where
  known : ∀ w a, Known (gif m) table w → a < 256 → dict (codeOf (gif m) table w <<< 8 ||| a) =
    if w ++ [a] ∈ table then some (codeOf (gif m) table (w ++ [a])) else none
  above : ∀ code a, (gif m).base + table.length ≤ code → a < 256 → dict (code <<< 8 ||| a) = none

theorem dict_nil : Dict m [] fun _ => none where
  known w a _ _ := by rw [if_neg List.not_mem_nil]
  above _ _ _ _ := rfl

/-- A new string in the dictionary. -/
theorem Dict.add (h : Dict m table dict) (grown : Grown (gif m) table) {w : List ℕ} {a : ℕ}
    (known : Known (gif m) table w) (small : a < 256) (new : w ++ [a] ∉ table) :
    Dict m (table ++ [w ++ [a]])
      (Function.update dict (codeOf (gif m) table w <<< 8 ||| a) (some ((gif m).base + table.length))) := by
  have below := codeOf_lt grown.long known
  have nonempty := List.length_pos_iff.mpr (known.ne_nil grown)
  have long : 2 ≤ (w ++ [a]).length := by
    rw [List.length_append, List.length_singleton]
    omega
  constructor
  · intro v b knownV smallB
    by_cases old : Known (gif m) table v
    · rw [codeOf_append old]
      by_cases same : v = w ∧ b = a
      · obtain ⟨rfl, rfl⟩ := same
        rw [Function.update_self, if_pos (by simp), codeOf_last long new]
      · have apart : codeOf (gif m) table v <<< 8 ||| b ≠ codeOf (gif m) table w <<< 8 ||| a := by
          rw [key_eq small, key_eq smallB]
          intro eq
          exact same ⟨codeOf_inj grown.long old known (by omega), by omega⟩
        have other : v ++ [b] ≠ w ++ [a] := by
          intro eq
          obtain ⟨rfl, last⟩ := List.append_inj' eq rfl
          exact same ⟨rfl, List.singleton_inj.mp last⟩
        rw [Function.update_of_ne apart, h.known v b old smallB]
        by_cases inside : v ++ [b] ∈ table
        · rw [if_pos inside, if_pos (List.mem_append_left _ inside), codeOf_append (.inr inside)]
        · rw [if_neg inside, if_neg]
          rw [List.mem_append, List.mem_singleton]
          exact not_or.mpr ⟨inside, other⟩
    · obtain rfl : v = w ++ [a] := by
        rcases knownV with symbol | inside
        · exact absurd (.inl symbol) old
        · rcases List.mem_append.mp inside with inside | last
          · exact absurd (.inr inside) old
          · exact List.mem_singleton.mp last
      have apart : ((gif m).base + table.length) <<< 8 ||| b ≠ codeOf (gif m) table w <<< 8 ||| a := by
        rw [key_eq small, key_eq smallB]
        omega
      rw [codeOf_last long new, Function.update_of_ne apart, h.above _ b (Nat.le_refl _) smallB, if_neg]
      intro inside
      rcases List.mem_append.mp inside with inside | last
      · obtain ⟨u, x, eq, -, knownU⟩ := grown.split _ inside
        obtain ⟨rfl, -⟩ := List.append_inj' eq rfl
        exact old knownU
      · have lengths := congrArg List.length (List.mem_singleton.mp last)
        simp at lengths
  · intro code b above smallB
    rw [List.length_append, List.length_singleton] at above
    have apart : code <<< 8 ||| b ≠ codeOf (gif m) table w <<< 8 ||| a := by
      rw [key_eq small, key_eq smallB]
      omega
    rw [Function.update_of_ne apart]
    exact h.above code b (by omega) smallB

end Dictionary

/-! ## Encoder and reader -/

/-- The bits of the first `n` strings, with the clear code in front of them. -/
def bitsBefore (minCode n : ℕ) : ℕ := minCode + 1 + ((List.range n).map (stringBits minCode)).sum

theorem bitsBefore_succ (m n : ℕ) : bitsBefore m (n + 1) = bitsBefore m n + stringBits m n := by
  rw [bitsBefore, bitsBefore, List.range_succ, List.map_append, List.sum_append, List.map_singleton,
    List.sum_singleton]
  exact (Nat.add_assoc ..).symm

theorem entries_succ (m i : ℕ) :
    entries m (i + 1) = if entries m i = room m then 0 else entries m i + 1 := by
  unfold entries
  split
  next full => exact Nat.succ_mod_succ_eq_zero_iff.mpr full
  next short =>
    have small : i % (room m + 1) < room m + 1 := Nat.mod_lt i (Nat.succ_pos _)
    have parts : i + 1 = (room m + 1) * (i / (room m + 1)) + (i % (room m + 1) + 1) := by
      rw [← Nat.add_assoc, Nat.div_add_mod]
    rw [parts, Nat.mul_add_mod, Nat.mod_eq_of_lt (by omega)]

section Stream

variable {m : ℕ} {front : List Byte} {s : Lzw} {seen : List ℕ} {table : Table} {w : List ℕ} {i : ℕ}

/-- Between two pixels: `seen` has been read, its last string `w` is not yet written, and `i`
strings are. -/
structure Sync (m : ℕ) (front : List Byte) (s : Lzw) (seen : List ℕ) (table : Table) (w : List ℕ) (i : ℕ) :
    Prop where
  reads : ∃ bits out r, Holds front s.bw bits ∧ s.bw.nbits < 8 ∧ bits.length = bitsBefore m i ∧
    Reads (gif m) (.start (gif m)) bits out r ∧ seen = out ++ w ∧ Behind (gif m) table w r ∧
    r.width = s.codeSize
  grown : Grown (gif m) table
  known : Known (gif m) table w
  code : s.prefixCode = some (codeOf (gif m) table w)
  dict : Dict m table s.dict
  next : s.next = (gif m).base + table.length
  fits : table.length ≤ room m
  codeSize : s.codeSize = widthAt m table.length
  count : table.length = entries m i

/-- The last string is written, and the reader knows as many strings as the encoder. -/
theorem Sync.write (large : m ≤ 8) (h : Sync m front s seen table w i) :
    ∃ bits r, Holds front (s.bw.put (codeOf (gif m) table w) s.codeSize) bits ∧
      (s.bw.put (codeOf (gif m) table w) s.codeSize).nbits < 8 ∧
      bits.length = bitsBefore m i + s.codeSize ∧ Reads (gif m) (.start (gif m)) bits seen r ∧
      r.table = table ∧ r.prev = some w ∧
      r.width = if table ≠ [] ∧ (gif m).base + table.length = 2 ^ s.codeSize ∧ s.codeSize < 12 then
        s.codeSize + 1 else s.codeSize := by
  obtain ⟨bits, out, r, holds, -, length, reads, rfl, behind, width⟩ := h.reads
  obtain ⟨next, received, same, prev, widened⟩ := behind.receive h.grown h.known h.fits
  have fits : codeOf (gif m) table w < 2 ^ s.codeSize := by
    rw [h.codeSize]
    exact code_fits large h.fits (codeOf_lt h.grown.long h.known)
  have pos : 0 < r.width := by
    rw [width, h.codeSize]
    exact widthAt_pos _
  obtain ⟨put, small⟩ := holds.put fits
  have read := reads.code pos (width ▸ fits) (codeOf_ne h.grown.long h.known) received
  rw [width] at read widened
  refine ⟨_, next, put, small, ?_, read, same, prev, widened⟩
  rw [List.length_append, length_bitsOf, length]

/-- A pixel that makes a string of the table longer. -/
theorem Sync.longer (h : Sync m front s seen table w i) {c : Byte}
    (inside : w ++ [c.toNat] ∈ table) :
    Sync m front (s.pixel m c) (seen ++ [c.toNat]) table (w ++ [c.toNat]) i := by
  have found := h.dict.known w c.toNat h.known c.isLt
  rw [if_pos inside] at found
  have pixel : s.pixel m c = { s with prefixCode := some (codeOf (gif m) table (w ++ [c.toNat])) } := by
    rw [Lzw.pixel, h.code]
    dsimp only
    rw [found]
  rw [pixel]
  obtain ⟨bits, out, r, holds, small, length, reads, rfl, behind, width⟩ := h.reads
  refine ⟨⟨bits, out, r, holds, small, length, reads, List.append_assoc .., ?_, width⟩,
    h.grown, .inr inside, rfl, h.dict, h.next, h.fits, h.codeSize, h.count⟩
  cases behind with
  | cleared empty same fresh => exact absurd (empty ▸ inside) List.not_mem_nil
  | following p before begun last =>
    refine .following p before begun (last.trans ?_)
    rw [List.take_append_of_le_length (List.length_pos_iff.mpr (h.known.ne_nil h.grown))]

/-- The string of a single pixel. -/
theorem known_symbol {c : Byte} (small : c.toNat < 2 ^ m) : Known (gif m) table [c.toNat] :=
  .inl ⟨c.toNat, small, rfl⟩

/-- A pixel that completes a new string for the table. -/
theorem Sync.new (low : 2 ≤ m) (large : m ≤ 8) (h : Sync m front s seen table w i) {c : Byte}
    (small : c.toNat < 2 ^ m) (new : w ++ [c.toNat] ∉ table) (open_ : table.length ≠ room m) :
    Sync m front (s.pixel m c) (seen ++ [c.toNat]) (table ++ [w ++ [c.toNat]]) [c.toNat] (i + 1) := by
  obtain ⟨bits, r, holds, nbits, length, reads, same, prev, width⟩ := h.write large
  have missing := h.dict.known w c.toNat h.known c.isLt
  rw [if_neg new] at missing
  have bound := h.fits
  have total := room_eq large
  have next := h.next
  have notFull : s.next ≠ 4096 := by omega
  have wider := widthAt_succ low large table.length
  have widen : 1 <<< s.codeSize < s.next + 1 ∧ s.codeSize < 12 ↔
      (gif m).base + table.length = 2 ^ s.codeSize ∧ s.codeSize < 12 := by
    rw [Nat.one_shiftLeft, next]
    constructor
    · rintro ⟨reached, narrow⟩
      have := lt_two_pow_widthAt (h.codeSize ▸ narrow)
      rw [← h.codeSize] at this
      omega
    · rintro ⟨full, narrow⟩
      omega
  have pixel : ∃ size, s.pixel m c =
      { s with
        bw := s.bw.put (codeOf (gif m) table w) s.codeSize
        dict := Function.update s.dict (codeOf (gif m) table w <<< 8 ||| c.toNat) (some s.next)
        next := s.next + 1, codeSize := size, prefixCode := some c.toNat } ∧
      size = if (gif m).base + table.length = 2 ^ s.codeSize ∧ s.codeSize < 12 then s.codeSize + 1
        else s.codeSize := by
    rw [Lzw.pixel, h.code]
    dsimp only
    rw [missing]
    unfold Lzw.add
    dsimp only
    rw [if_neg notFull]
    by_cases full : (gif m).base + table.length = 2 ^ s.codeSize ∧ s.codeSize < 12
    · rw [if_pos (widen.mpr full)]
      exact ⟨_, rfl, (if_pos full).symm⟩
    · rw [if_neg (fun h => full (widen.mp h))]
      exact ⟨_, rfl, (if_neg full).symm⟩
  obtain ⟨size, eq, sized⟩ := pixel
  rw [eq]
  have notEmpty : r.width = size := by
    rw [width, sized]
    by_cases empty : table = []
    · have not_full : ¬((gif m).base + table.length = 2 ^ s.codeSize ∧ s.codeSize < 12) := by
        rw [h.codeSize, empty, List.length_nil, widthAt_zero low large]
        exact fun h => Nat.ne_of_lt (base_lt low) h.1
      rw [if_neg not_full, if_neg (fun h => h.1 empty)]
    · simp only [empty, ne_eq, not_false_eq_true, true_and]
  refine ⟨⟨bits, seen, r, holds, nbits, ?_, reads, rfl, ?_, notEmpty⟩, ?_, known_symbol small, rfl, ?_, ?_, ?_, ?_, ?_⟩
  · rw [length, bitsBefore_succ, stringBits, if_neg (h.count ▸ open_), ← h.count, h.codeSize]
  · exact .following w prev (h.known.ne_nil h.grown) (by rw [same]; rfl)
  · exact h.grown.append h.known small new
  · have added := h.dict.add h.grown h.known c.isLt new
    rwa [← next] at added
  · rw [List.length_append, List.length_singleton, next]
    exact Nat.add_assoc ..
  · rw [List.length_append, List.length_singleton]
    omega
  · rw [List.length_append, List.length_singleton, wider, sized, h.codeSize]
  · rw [List.length_append, List.length_singleton, entries_succ, if_neg (h.count ▸ open_), h.count]

/-- A pixel behind a full table clears it. -/
theorem Sync.cleared (low : 2 ≤ m) (large : m ≤ 8) (h : Sync m front s seen table w i) {c : Byte}
    (small : c.toNat < 2 ^ m) (new : w ++ [c.toNat] ∉ table) (full : table.length = room m) :
    Sync m front (s.pixel m c) (seen ++ [c.toNat]) [] [c.toNat] (i + 1) := by
  obtain ⟨bits, r, holds, nbits, length, reads, same, prev, width⟩ := h.write large
  have missing := h.dict.known w c.toNat h.known c.isLt
  rw [if_neg new] at missing
  have total := room_eq large
  have nextFull : s.next = 4096 := by
    rw [h.next, full, total]
  have wide : s.codeSize = 12 := by
    rw [h.codeSize]
    refine Nat.le_antisymm (widthAt_le _) (Nat.not_lt.mp fun narrow => ?_)
    have below := lt_two_pow_widthAt narrow
    have : 2 ^ widthAt m table.length ≤ 2 ^ 11 := Nat.pow_le_pow_right Nat.two_pos (by omega)
    omega
  have sameWidth : r.width = s.codeSize := by
    rw [width, if_neg]
    rintro ⟨-, -, narrow⟩
    omega
  have clearFits : (gif m).clear < 2 ^ s.codeSize := by
    have : 2 ^ m ≤ 2 ^ 8 := Nat.pow_le_pow_right Nat.two_pos large
    rw [wide]
    change 2 ^ m < 4096
    omega
  have clearCode : Lzw.clear m = (gif m).clear := Nat.one_shiftLeft m
  have pixel : s.pixel m c =
      { s with
        bw := (s.bw.put (codeOf (gif m) table w) s.codeSize).put (gif m).clear s.codeSize
        dict := fun _ => none, next := (gif m).base, codeSize := m + 1, prefixCode := some c.toNat } := by
    rw [Lzw.pixel, h.code]
    dsimp only
    rw [missing]
    unfold Lzw.add Lzw.reset
    dsimp only
    rw [if_pos nextFull, clearCode]
    have first : Lzw.eoi m + 1 = (gif m).base := by
      rw [Lzw.eoi, clearCode]
      rfl
    rw [first]
  rw [pixel]
  obtain ⟨put, nbits'⟩ := holds.put clearFits
  have read := reads.clear (by omega) (sameWidth ▸ clearFits)
  rw [sameWidth] at read
  refine ⟨⟨_, seen, _, put, nbits', ?_, read, rfl, .cleared rfl rfl rfl, rfl⟩, grown_nil, known_symbol small, rfl,
    dict_nil, rfl, Nat.zero_le _, (widthAt_zero low large).symm, ?_⟩
  · rw [List.length_append, length_bitsOf, length, bitsBefore_succ, stringBits, ← h.count, if_pos full,
      ← h.codeSize]
    omega
  · rw [entries_succ, ← h.count, if_pos full, List.length_nil]

/-- Behind each pixel there are as many strings still to come as the text is cut into. -/
theorem Sync.pixel (low : 2 ≤ m) (large : m ≤ 8) (h : Sync m front s seen table w i) {c : Byte}
    (small : c.toNat < 2 ^ m) (rest : List ℕ) :
    ∃ table' w' i', Sync m front (s.pixel m c) (seen ++ [c.toNat]) table' w' i' ∧
      i' + (cut (room m) table' w' rest).length = i + (cut (room m) table w (c.toNat :: rest)).length := by
  rw [cut_cons]
  by_cases inside : w ++ [c.toNat] ∈ table
  · rw [if_pos inside]
    exact ⟨table, _, i, h.longer inside, rfl⟩
  · rw [if_neg inside, List.length_cons]
    by_cases full : table.length = room m
    · rw [if_pos full]
      refine ⟨[], _, i + 1, h.cleared low large small inside full, ?_⟩
      omega
    · rw [if_neg full]
      refine ⟨_, _, i + 1, h.new low large small inside full, ?_⟩
      omega

/-- Behind all pixels of a frame. -/
theorem Sync.pixels (low : 2 ≤ m) (large : m ≤ 8) (idx : List Byte) (small : ∀ c ∈ idx, c.toNat < 2 ^ m)
    (h : Sync m front s seen table w i) :
    ∃ table' w' i', Sync m front (idx.foldl (Lzw.pixel m) s) (seen ++ idx.map BitVec.toNat) table' w' i' ∧
      i' + 1 = i + (cut (room m) table w (idx.map BitVec.toNat)).length := by
  induction idx generalizing s seen table w i with
  | nil => exact ⟨table, w, i, by simpa using h, rfl⟩
  | cons c rest ih =>
    obtain ⟨table₁, w₁, i₁, sync, count⟩ := h.pixel low large (small c List.mem_cons_self) (rest.map BitVec.toNat)
    obtain ⟨table₂, w₂, i₂, sync', count'⟩ := ih (fun c' inside => small c' (List.mem_cons_of_mem c inside)) sync
    refine ⟨table₂, w₂, i₂, ?_, count'.trans count⟩
    simpa using sync'

end Stream

/-! ## Frames -/

section Frames

variable {m : ℕ} {front : List Byte}

/-- Behind the first pixel. -/
theorem sync_first (low : 2 ≤ m) (large : m ≤ 8) {c : Byte} (small : c.toNat < 2 ^ m) :
    Sync m (front ++ [BitVec.ofNat 8 m]) ((Lzw.start m front).pixel m c) [c.toNat] [] [c.toNat] 0 := by
  have clearCode : Lzw.clear m = (gif m).clear := Nat.one_shiftLeft m
  have empty : Holds (front ++ [BitVec.ofNat 8 m]) { out := front ++ [BitVec.ofNat 8 m] } [] := by
    refine ⟨⟨[], [], ⟨fun b absent => absurd absent List.not_mem_nil, ?_, rfl, show 0 < 255 by decide⟩, rfl⟩, Nat.one_pos⟩
    simp [blocks]
  have clearFits : (gif m).clear < 2 ^ (m + 1) := (Nat.lt_add_of_pos_right Nat.two_pos).trans (base_lt low)
  obtain ⟨put, nbits⟩ := empty.put clearFits
  have read := (Reads.start : Reads (gif m) (.start (gif m)) [] [] _).clear (Nat.succ_pos m) clearFits
  have pixel : (Lzw.start m front).pixel m c =
      { bw := BitWriter.put { out := front ++ [BitVec.ofNat 8 m] } (gif m).clear (m + 1)
        codeSize := m + 1, next := (gif m).base, prefixCode := some c.toNat } := by
    have first : Lzw.eoi m + 1 = (gif m).base := by
      rw [Lzw.eoi, clearCode]
      rfl
    simp only [Lzw.start, Lzw.pixel, clearCode, first]
  rw [pixel]
  refine ⟨⟨_, [], _, put, nbits, ?_, read, rfl, .cleared rfl rfl rfl, rfl⟩, grown_nil, known_symbol small, rfl,
    dict_nil, rfl, Nat.zero_le _, (widthAt_zero low large).symm, ?_⟩
  · simp [bitsBefore]
  · exact (Nat.zero_mod _).symm

/-- The image data of a frame read back as its pixels, unless its codes are cut. -/
theorem lzw_reads (front : List Byte) (low : 2 ≤ m) (large : m ≤ 8) {idx : List Byte} (nonempty : idx ≠ [])
    (small : ∀ c ∈ idx, c.toNat < 2 ^ m) :
    ∃ body data, lzw front idx m = front ++ BitVec.ofNat 8 m :: body ∧
      (∀ rest, readBlocks (body ++ rest) = some (data, rest)) ∧
      decode (gif m) (.start (gif m)) (byteBits data) =
        if Cut m (strings (room m) (idx.map BitVec.toNat)).length then none
        else some (idx.map BitVec.toNat) := by
  obtain ⟨c, rest, rfl⟩ := List.exists_cons_of_ne_nil nonempty
  obtain ⟨table, w, i, sync, count⟩ := (sync_first low large (small c List.mem_cons_self)).pixels low large rest
    (fun c' inside => small c' (List.mem_cons_of_mem c inside))
  obtain ⟨bits, r, holds, nbits, length, reads, same, -, width⟩ := sync.write large
  have stopCode : Lzw.eoi m = (gif m).stop := congrArg (· + 1) (Nat.one_shiftLeft m)
  have stopFits : (gif m).stop < 2 ^ ((rest.foldl (Lzw.pixel m) ((Lzw.start m front).pixel m c)).codeSize) := by
    rw [sync.codeSize]
    exact code_fits large sync.fits (Nat.lt_add_right _ (Nat.lt_succ_self _))
  obtain ⟨holds', nbits'⟩ := holds.put stopFits
  obtain ⟨body, data, pad, finish, blocks, padded, few⟩ := holds'.finish nbits'
  refine ⟨body, data, ?_, blocks, ?_⟩
  · rw [lzw, List.foldl_cons, sync.code]
    dsimp only
    rw [stopCode, finish, List.append_assoc, List.singleton_append]
  · have stopClear : (gif m).stop ≠ (gif m).clear := Nat.succ_ne_self _
    have total : bits.length + widthAt m table.length + pad = 8 * data.length := by
      have lengths := congrArg List.length padded
      rw [length_byteBits, List.length_append, List.length_append, length_bitsOf, length_bitsOf] at lengths
      rw [← sync.codeSize]
      exact lengths.symm
    have all : streamBits m (i + 1) = bits.length + widthAt m table.length := by
      rw [length, streamBits, Nat.add_sub_cancel, ← bitsBefore, ← sync.count, sync.codeSize]
      omega
    have strings_ : (strings (room m) ((c :: rest).map BitVec.toNat)).length = i + 1 :=
      (Nat.zero_add _).symm.trans count.symm
    have cutIff : Cut m (i + 1) ↔ (table ≠ [] ∧ (gif m).base + table.length = 2 ^ widthAt m table.length ∧
        widthAt m table.length < 12) ∧ pad = 0 := by
      rw [Cut, all, Nat.add_sub_cancel, ← sync.count, List.length_pos_iff]
      constructor
      · rintro ⟨nonempty, narrow, full, whole⟩
        exact ⟨⟨nonempty, full, narrow⟩, by omega⟩
      · rintro ⟨⟨nonempty, full, narrow⟩, aligned⟩
        exact ⟨nonempty, narrow, full, by omega⟩
    rw [padded, List.append_assoc, reads.decode, strings_]
    rw [sync.codeSize] at width stopFits ⊢
    by_cases widened : table ≠ [] ∧ (gif m).base + table.length = 2 ^ widthAt m table.length ∧
        widthAt m table.length < 12
    · rw [if_pos widened] at width
      by_cases aligned : pad = 0
      · rw [if_pos (cutIff.mpr ⟨widened, aligned⟩), aligned, decode_short]
        · rfl
        · rw [List.length_append, length_bitsOf, length_bitsOf, width]
          omega
      · -- the first zero behind the end code is its highest bit for the reader
        have longer : bitsOf (widthAt m table.length) (gif m).stop ++ bitsOf pad 0 =
            bitsOf r.width (gif m).stop ++ bitsOf (pad - 1) 0 := by
          rw [width, bitsOf_of_lt stopFits, List.append_assoc, ← bitsOf_zero_append,
            Nat.add_sub_cancel' (Nat.pos_of_ne_zero aligned)]
        have fits : (gif m).stop < 2 ^ r.width :=
          stopFits.trans_le (Nat.pow_le_pow_right Nat.two_pos (by omega))
        rw [if_neg (fun h => aligned (cutIff.mp h).2), longer, decode_code _ _ fits _ (by omega),
          if_neg stopClear, if_pos rfl, Option.map_some, List.append_nil]
        rfl
    · rw [if_neg widened] at width
      rw [if_neg (fun h => widened (cutIff.mp h).1), ← width, decode_code _ _ (width ▸ stopFits),
        if_neg stopClear, if_pos rfl, Option.map_some, List.append_nil]
      · rfl
      · rw [width]
        exact widthAt_pos _

end Frames

end Mmemu.Guarantees.GifCodes

/-!
# GIF files read back

A reader of the GIF89a format gets the palette indices of every frame from a file of the
writer, except for frames whose codes are cut: the last one makes the reader's codes wider
and no bit is left for it.
-/
namespace Mmemu.Guarantees.GifFrames

open Source.GifWriter Library.BitStream Library.Lzw GifBlocks GifCodes

/-! ## Reading files -/

/-- The bytes of a colour table, by the flags before it. -/
def tableBytes (flags : Byte) : ℕ := if flags.getLsbD 7 then 3 * 2 ^ ((flags &&& 7).toNat + 1) else 0

/-- The image data behind a descriptor: a code size and sub-blocks. -/
def readImage : List Byte → Option (Option (List ℕ) × List Byte)
  | [] => none
  | minCode :: rest =>
    (readBlocks rest).map fun next =>
      (decode (gif minCode.toNat) (.start (gif minCode.toNat)) (byteBits next.1), next.2)

/-- The pixels of each image up to the trailer, past the extensions; an image is `none` when its
codes do not lead to an end code. -/
def readImages : ℕ → List Byte → Option (List (Option (List ℕ)))
  | 0, _ => none
  | _ + 1, [] => none
  | rounds + 1, block :: rest =>
    if block = 0x3B then some []
    else if block = 0x21 then (readBlocks (rest.drop 1)).bind fun next => readImages rounds next.2
    else if block = 0x2C then
      (readImage (rest.drop (9 + tableBytes (rest.getD 8 0)))).bind fun next =>
        (readImages rounds next.2).map (next.1 :: ·)
    else none

/-- The images of a file; each round takes one of its bytes at least. -/
def readGif (file : List Byte) : Option (List (Option (List ℕ))) :=
  if file.take 6 = [0x47, 0x49, 0x46, 0x38, 0x39, 0x61] then
    readImages file.length (file.drop (13 + tableBytes (file.getD 10 0)))
  else none

/-! ## The palette -/

section Palettes

variable {p p' : Palette}

/-- Each index is the place of its colour. -/
structure Places (p : Palette) : Prop where
  place : ∀ c b, p.index c = some b → p.palette[b.toNat]? = some c
  length : p.palette.length ≤ 256

/-- A palette with the colours of another in their places. -/
structure Extends (p p' : Palette) : Prop where
  kept : ∀ c b, p.index c = some b → p'.index c = some b

theorem Extends.refl : Extends p p := ⟨fun _ _ h => h⟩

theorem Extends.trans {p'' : Palette} (h : Extends p p') (h' : Extends p' p'') : Extends p p'' :=
  ⟨fun c b at_ => h'.kept c b (h.kept c b at_)⟩

theorem addColour_ok (places : Places p) {argb : BitVec 32} (added : p.addColour argb = .ok p') :
    Places p' ∧ Extends p p' ∧ (p'.index (rgb argb)).isSome := by
  unfold Palette.addColour at added
  split at added
  next present =>
    cases added
    exact ⟨places, .refl, present⟩
  next absent =>
    split at added
    · cases added
    next notFull =>
      cases added
      have small : p.palette.length < 256 := by
        have := places.length
        omega
      have place : (BitVec.ofNat 8 p.palette.length).toNat = p.palette.length := by
        rw [BitVec.toNat_ofNat]
        exact Nat.mod_eq_of_lt small
      refine ⟨⟨?_, ?_⟩, ⟨?_⟩, ?_⟩
      · intro c b at_
        dsimp only at at_ ⊢
        by_cases same : c = rgb argb
        · subst same
          rw [Function.update_self] at at_
          obtain rfl := Option.some.inj at_
          simp [place]
        · rw [Function.update_of_ne same] at at_
          have old := places.place c b at_
          rw [List.getElem?_append_left (List.getElem?_eq_some_iff.mp old).1]
          exact old
      · rw [List.length_append, List.length_singleton]
        exact small
      · intro c b at_
        have other : c ≠ rgb argb := by
          rintro rfl
          exact absent (by rw [at_]; rfl)
        exact (Function.update_of_ne other ..).trans at_
      · simp

theorem foldlM_ok {α β : Type} {f : β → α → Except String β} {b b' : β} {a : α} {l : List α}
    (h : (a :: l).foldlM f b = .ok b') : ∃ mid, f b a = .ok mid ∧ l.foldlM f mid = .ok b' := by
  rw [List.foldlM_cons] at h
  cases first : f b a with
  | error e =>
    rw [first] at h
    cases h
  | ok mid =>
    rw [first] at h
    exact ⟨mid, rfl, h⟩

theorem addColours_ok (places : Places p) {argb : List (BitVec 32)}
    (added : argb.foldlM Palette.addColour p = .ok p') :
    Places p' ∧ Extends p p' ∧ ∀ a ∈ argb, (p'.index (rgb a)).isSome := by
  induction argb generalizing p with
  | nil =>
    cases added
    exact ⟨places, .refl, fun a absent => absurd absent List.not_mem_nil⟩
  | cons a rest ih =>
    obtain ⟨mid, first, others⟩ := foldlM_ok added
    obtain ⟨places', ext, present⟩ := addColour_ok places first
    obtain ⟨places'', ext', all⟩ := ih places' others
    refine ⟨places'', ext.trans ext', fun a' inside => ?_⟩
    rcases List.mem_cons.mp inside with rfl | inside
    · obtain ⟨b, at_⟩ := Option.isSome_iff_exists.mp present
      rw [ext'.kept _ b at_]
      rfl
    · exact all a' inside

theorem addFrames_ok (places : Places p) {n : ℕ} {frames : List Frame}
    (added : frames.foldlM (Palette.addFrame n) p = .ok p') :
    Places p' ∧ Extends p p' ∧
      ∀ f ∈ frames, f.argb.length = n ∧ ∀ a ∈ f.argb, (p'.index (rgb a)).isSome := by
  induction frames generalizing p with
  | nil =>
    cases added
    exact ⟨places, .refl, fun f absent => absurd absent List.not_mem_nil⟩
  | cons f rest ih =>
    obtain ⟨mid, first, others⟩ := foldlM_ok added
    unfold Palette.addFrame at first
    split at first
    · cases first
    next fits =>
      obtain ⟨places', ext, present⟩ := addColours_ok places first
      obtain ⟨places'', ext', all⟩ := ih places' others
      refine ⟨places'', ext.trans ext', fun f' inside => ?_⟩
      rcases List.mem_cons.mp inside with rfl | inside
      · refine ⟨not_not.mp fits, fun a colour => ?_⟩
        obtain ⟨b, at_⟩ := Option.isSome_iff_exists.mp (present a colour)
        rw [ext'.kept _ b at_]
        rfl
      · exact all f' inside

theorem le_two_pow_bitsLoop (size rounds bits : ℕ) (enough : size ≤ bits + rounds) :
    size ≤ 2 ^ Palette.bitsLoop size rounds bits := by
  induction rounds generalizing bits with
  | zero => exact enough.trans Nat.lt_two_pow_self.le
  | succ rounds ih =>
    unfold Palette.bitsLoop
    split
    · exact ih (bits + 1) (by omega)
    next fits => exact Nat.not_lt.mp fits

theorem bitsLoop_le {size : ℕ} (small : size ≤ 256) (rounds bits : ℕ) (low : bits ≤ 8) :
    bits ≤ Palette.bitsLoop size rounds bits ∧ Palette.bitsLoop size rounds bits ≤ 8 := by
  induction rounds generalizing bits with
  | zero => exact ⟨Nat.le_refl _, low⟩
  | succ rounds ih =>
    unfold Palette.bitsLoop
    split
    next more =>
      have below : bits < 8 := (Nat.pow_lt_pow_iff_right (by decide)).mp (more.trans_le (show size ≤ 2 ^ 8 from small))
      obtain ⟨atLeast, atMost⟩ := ih (bits + 1) below
      exact ⟨by omega, atMost⟩
    · exact ⟨Nat.le_refl _, low⟩

theorem Places.bits (h : Places p) : 1 ≤ p.bits ∧ p.bits ≤ 8 :=
  bitsLoop_le h.length p.palette.length 1 (by decide)

theorem Places.minCode (h : Places p) : 2 ≤ p.minCode ∧ p.minCode ≤ 8 := by
  have := h.bits
  unfold Palette.minCode
  split <;> omega

/-- Every index is a symbol of the codes. -/
theorem Places.index_lt (h : Places p) {c : BitVec 32} {b : Byte} (at_ : p.index c = some b) :
    b.toNat < 2 ^ p.minCode := by
  have inside := (List.getElem?_eq_some_iff.mp (h.place c b at_)).1
  have enough : p.palette.length ≤ 2 ^ p.bits := le_two_pow_bitsLoop _ _ 1 (Nat.le_add_left _ 1)
  have wider : 2 ^ p.bits ≤ 2 ^ p.minCode := by
    refine Nat.pow_le_pow_right Nat.two_pos ?_
    unfold Palette.minCode
    split <;> omega
  exact inside.trans_le (enough.trans wider)

end Palettes

/-! ## Blocks of a file -/

section Files

variable {p : Palette} (rounds : ℕ) (rest : List Byte)

/-- What a reader gets of a frame. -/
def seen (p : Palette) (f : Frame) : Option (List ℕ) :=
  if Cut p.minCode (strings (room p.minCode) ((p.indices f).map BitVec.toNat)).length then none
  else some ((p.indices f).map BitVec.toNat)

theorem readImages_trailer : readImages (rounds + 1) (0x3B :: rest) = some [] := by
  rw [readImages, if_pos rfl]

/-- The application extension is skipped. -/
theorem readImages_application : readImages (rounds + 1) (application ++ rest) = readImages rounds rest := by
  have read : ∃ data, readBlocks (application.drop 2 ++ rest) = some (data, rest) := by
    have eleven : readBlocks (application.drop 2 ++ rest) = (readBlocks (application.drop 14 ++ rest)).map _ :=
      readBlocks_block ((application.drop 3).take 11) (by decide) (by decide) (application.drop 14 ++ rest)
    have three : readBlocks (application.drop 14 ++ rest) = (readBlocks (0x00 :: rest)).map _ :=
      readBlocks_block ((application.drop 15).take 3) (by decide) (by decide) (0x00 :: rest)
    rw [eleven, three, readBlocks_end]
    exact ⟨_, rfl⟩
  obtain ⟨data, read⟩ := read
  change (readBlocks (application.drop 2 ++ rest)).bind (fun next => readImages rounds next.2) = _
  rw [read, Option.bind_some]

/-- The graphic control extension is skipped. -/
theorem readImages_control (f : Frame) :
    readImages (rounds + 1) (control f ++ rest) = readImages rounds rest := by
  have read : ∃ data, readBlocks ((control f).drop 2 ++ rest) = some (data, rest) := by
    have four : readBlocks ((control f).drop 2 ++ rest) = (readBlocks (0x00 :: rest)).map _ :=
      readBlocks_block (((control f).drop 3).take 4) (List.cons_ne_nil _ _) (by simp) (0x00 :: rest)
    rw [four, readBlocks_end]
    exact ⟨_, rfl⟩
  obtain ⟨data, read⟩ := read
  change (readBlocks ((control f).drop 2 ++ rest)).bind (fun next => readImages rounds next.2) = _
  rw [read, Option.bind_some]

theorem readImages_descriptor (width height : ℕ) {minCode : ℕ} (small : minCode ≤ 8) {body data : List Byte}
    (blocks : ∀ rest, readBlocks (body ++ rest) = some (data, rest)) :
    readImages (rounds + 1) (descriptor width height ++ BitVec.ofNat 8 minCode :: body ++ rest) =
      (readImages rounds rest).map
        (decode (gif minCode) (.start (gif minCode)) (byteBits data) :: ·) := by
  have code : (BitVec.ofNat 8 minCode).toNat = minCode := by
    rw [BitVec.toNat_ofNat]
    exact Nat.mod_eq_of_lt (by omega)
  have image : readImage (BitVec.ofNat 8 minCode :: body ++ rest) =
      some (decode (gif minCode) (.start (gif minCode)) (byteBits data), rest) := by
    rw [List.cons_append, readImage, blocks, code]
    rfl
  have noTable : tableBytes 0 = 0 := by decide
  have split : descriptor width height =
      0x2C :: (put16 0 ++ put16 0 ++ put16 width ++ put16 height ++ [0]) := rfl
  rw [List.append_assoc, split, List.cons_append, readImages, if_neg (by decide), if_neg (by decide), if_pos rfl]
  change (readImage (List.drop (9 + tableBytes 0) _)).bind _ = _
  rw [noTable]
  change (readImage (BitVec.ofNat 8 minCode :: body ++ rest)).bind
    (fun next => (readImages rounds next.2).map (next.1 :: ·)) = _
  rw [image, Option.bind_some]

/-- An image is read, and the file goes on behind it. -/
theorem readImages_image (places : Places p) (animated : Bool) (width height : ℕ) (out : List Byte)
    {f : Frame} (nonempty : f.argb ≠ []) (present : ∀ a ∈ f.argb, (p.index (rgb a)).isSome) :
    ∃ tail, image p animated width height out f = out ++ tail ∧ 2 ≤ tail.length ∧
      ∀ rounds rest, readImages (rounds + if animated then 2 else 1) (tail ++ rest) =
        (readImages rounds rest).map (seen p f :: ·) := by
  obtain ⟨low, large⟩ := places.minCode
  have small : ∀ c ∈ p.indices f, c.toNat < 2 ^ p.minCode := by
    intro c inside
    obtain ⟨a, colour, rfl⟩ := List.mem_map.mp inside
    obtain ⟨b, at_⟩ := Option.isSome_iff_exists.mp (present a colour)
    rw [at_, Option.getD_some]
    exact places.index_lt at_
  have pixels : p.indices f ≠ [] := fun none => nonempty (List.map_eq_nil_iff.mp none)
  obtain ⟨body, data, lzw, blocks, decoded⟩ :=
    lzw_reads (out ++ (if animated then control f else []) ++ descriptor width height) low large pixels small
  refine ⟨(if animated then control f else []) ++ (descriptor width height ++ BitVec.ofNat 8 p.minCode :: body),
    ?_, ?_, fun rounds rest => ?_⟩
  · rw [image, lzw]
    simp only [List.append_assoc]
  · simp only [List.length_append, descriptor, put16, List.length_cons]
    omega
  · have read := fun rounds => readImages_descriptor rounds rest width height large blocks
    rw [decoded] at read
    cases animated with
    | true =>
      rw [if_pos rfl, if_pos rfl, List.append_assoc]
      exact (readImages_control (rounds + 1) _ f).trans (read rounds)
    | false => exact read rounds

theorem readImages_images (places : Places p) (animated : Bool) (width height : ℕ) (frames : List Frame)
    (fine : ∀ f ∈ frames, f.argb ≠ [] ∧ ∀ a ∈ f.argb, (p.index (rgb a)).isSome) (out : List Byte) :
    ∃ tail, frames.foldl (image p animated width height) out = out ++ tail ∧
      2 * frames.length ≤ tail.length ∧
      ∀ rounds, 2 * frames.length ≤ rounds →
        readImages (rounds + 1) (tail ++ [0x3B]) = some (frames.map (seen p)) := by
  induction frames generalizing out with
  | nil => exact ⟨[], by simp, Nat.zero_le _, fun rounds _ => readImages_trailer rounds []⟩
  | cons f rest ih =>
    obtain ⟨nonempty, present⟩ := fine f List.mem_cons_self
    obtain ⟨tail, first, long, reads⟩ := readImages_image places animated width height out nonempty present
    obtain ⟨tail', others, long', reads'⟩ := ih (fun f' inside => fine f' (List.mem_cons_of_mem f inside))
      (out ++ tail)
    refine ⟨tail ++ tail', ?_, ?_, fun rounds enough => ?_⟩
    · rw [List.foldl_cons, first, others, List.append_assoc]
    · rw [List.length_append, List.length_cons]
      omega
    · rw [List.length_cons] at enough
      have left : ∃ left, rounds + 1 = left + 1 + (if animated then 2 else 1) ∧ 2 * rest.length ≤ left := by
        cases animated with
        | true => exact ⟨rounds - 2, by simp only [if_true]; omega, by omega⟩
        | false => exact ⟨rounds - 1, by simp only [Bool.false_eq_true, if_false]; omega, by omega⟩
      obtain ⟨left, split, enough'⟩ := left
      rw [split, List.append_assoc, reads, reads' left enough']
      rfl

/-- The reader finds the end of the header. -/
theorem readGif_header (low : 1 ≤ p.bits) (high : p.bits ≤ 8) (width height : ℕ) :
    readGif (header p width height ++ rest) = readImages (header p width height ++ rest).length rest := by
  have flags : tableBytes (BitVec.ofNat 8 (0x80 ||| (p.bits - 1) <<< 4 ||| (p.bits - 1))) = 3 * 2 ^ p.bits := by
    have all : ∀ bits ∈ (List.range 9).drop 1,
        tableBytes (BitVec.ofNat 8 (0x80 ||| (bits - 1) <<< 4 ||| (bits - 1))) = 3 * 2 ^ bits := by decide
    refine all p.bits ?_
    rw [List.mem_iff_getElem?]
    refine ⟨p.bits - 1, ?_⟩
    rw [List.getElem?_drop, Nat.add_sub_cancel' low, List.getElem?_range (by omega)]
  have colours : ∀ l : List ℕ, (l.flatMap fun i => colour (p.palette.getD i 0)).length = 3 * l.length := by
    intro l
    induction l with
    | nil => rfl
    | cons i l ih =>
      rw [List.flatMap_cons, List.length_append, ih, List.length_cons]
      simp only [colour, List.length_cons, List.length_nil]
      omega
  have length : (header p width height).length = 13 + 3 * 2 ^ p.bits := by
    rw [header, List.length_append, colours, List.length_range]
    rfl
  have signature : (header p width height ++ rest).take 6 = [0x47, 0x49, 0x46, 0x38, 0x39, 0x61] := rfl
  have flag : (header p width height ++ rest).getD 10 0 =
      BitVec.ofNat 8 (0x80 ||| (p.bits - 1) <<< 4 ||| (p.bits - 1)) := rfl
  rw [readGif, if_pos signature, flag, flags, ← length, List.drop_left]

/-- A file of the writer, read back. -/
theorem readGif_encode {frames : List Frame} {width height : ℤ} {p : Palette} {file : List Byte}
    (palette : paletteOf frames (width.toNat * height.toNat) = .ok p)
    (encoded : encode frames width height = .ok file) : readGif file = some (frames.map (seen p)) := by
  unfold encode at encoded
  split at encoded
  · cases encoded
  · split at encoded
    · cases encoded
    next sized =>
      rw [palette] at encoded
      cases encoded
      obtain ⟨places, -, fine⟩ := addFrames_ok ⟨(fun c b absent => by cases absent), Nat.zero_le _⟩ palette
      have pixels : 0 < width.toNat * height.toNat := by
        refine Nat.mul_pos ?_ ?_ <;> omega
      have fine' : ∀ f ∈ frames, f.argb ≠ [] ∧ ∀ a ∈ f.argb, (p.index (rgb a)).isSome := by
        intro f inside
        obtain ⟨length, present⟩ := fine f inside
        refine ⟨fun none => ?_, present⟩
        rw [none] at length
        exact Nat.ne_of_gt pixels length.symm
      obtain ⟨tail, out, long, reads⟩ := readImages_images places (decide (1 < frames.length)) width.toNat
        height.toNat frames fine'
        (header p width.toNat height.toNat ++ if decide (1 < frames.length) then application else [])
      cases animated : decide (1 < frames.length) with
      | true =>
        rw [animated] at out
        rw [if_pos rfl] at out ⊢
        rw [out, List.append_assoc, List.append_assoc, readGif_header _ places.bits.1 places.bits.2]
        have long' : 2 * frames.length + 2 ≤ (header p width.toNat height.toNat ++
            (application ++ (tail ++ [0x3B]))).length := by
          have : application.length = 19 := rfl
          simp only [List.length_append]
          omega
        obtain ⟨rounds, length⟩ := Nat.exists_eq_add_of_le' long'
        rw [length, ← Nat.add_assoc, readImages_application (_ + 1), reads _ (Nat.le_add_left ..)]
      | false =>
        rw [animated] at out
        simp only [Bool.false_eq_true, if_false, List.append_nil] at out ⊢
        rw [out, List.append_assoc, readGif_header _ places.bits.1 places.bits.2]
        have long' : 2 * frames.length + 1 ≤ (header p width.toNat height.toNat ++ (tail ++ [0x3B])).length := by
          simp only [List.length_append, List.length_singleton]
          omega
        obtain ⟨rounds, length⟩ := Nat.exists_eq_add_of_le' long'
        rw [length, ← Nat.add_assoc, reads _ (Nat.le_add_left ..)]

end Files

/-! ## The frames of a file -/

/-- A file's images are its frames, each pixel for pixel up to the end code, exactly when the
codes of no frame are cut. -/
theorem frames_read_back_iff {frames : List Frame} {width height : ℤ} {p : Palette} {file : List Byte}
    (palette : paletteOf frames (width.toNat * height.toNat) = .ok p)
    (encoded : encode frames width height = .ok file) :
    readGif file = some (frames.map fun f => some ((p.indices f).map BitVec.toNat)) ↔
      ∀ f ∈ frames, ¬Cut p.minCode (strings (room p.minCode) ((p.indices f).map BitVec.toNat)).length := by
  rw [readGif_encode palette encoded, Option.some.injEq, List.map_inj_left]
  refine forall₂_congr fun f _ => ?_
  unfold seen
  split
  next cut => exact iff_of_false (fun none => by cases none) (fun whole => whole cut)
  next whole => exact iff_of_true rfl whole

/-- A single black pixel. -/
def pixel : List Frame := [{ argb := [0] }]

/-- Its palette and its file. -/
def pixelPalette : Palette := { index := Function.update (fun _ => none) 0 (some 0), palette := [0] }

def pixelFile : List Byte :=
  [0x47, 0x49, 0x46, 0x38, 0x39, 0x61, 0x01, 0x00, 0x01, 0x00, 0x80, 0x00, 0x00, 0x00, 0x00, 0x00, 0x00, 0x00,
    0x00, 0x2C, 0x00, 0x00, 0x00, 0x00, 0x01, 0x00, 0x01, 0x00, 0x00, 0x02, 0x02, 0x44, 0x01, 0x00, 0x3B]

theorem frames_read_back_iff_pixel : readGif pixelFile = some [some [0]] := by
  have palette : paletteOf pixel ((1 : ℤ).toNat * (1 : ℤ).toNat) = .ok pixelPalette := rfl
  have encoded : encode pixel 1 1 = .ok pixelFile := rfl
  exact (frames_read_back_iff palette encoded).mpr (by decide)

/-- Eleven pixels whose codes are the pixels themselves. -/
def row : List Frame := [{ argb := [0, 0, 1, 0, 2, 0, 3, 1, 1, 2, 1] }]

/-- Its end code fills the last byte with four bits, where a reader wants five. -/
theorem row_not_read_back : ∃ p file, paletteOf row 11 = .ok p ∧ encode row 11 1 = .ok file ∧
    readGif file ≠ some (row.map fun f => some ((p.indices f).map BitVec.toNat)) := by
  obtain ⟨p, palette⟩ : ∃ p, paletteOf row ((11 : ℤ).toNat * (1 : ℤ).toNat) = .ok p := ⟨_, rfl⟩
  obtain ⟨file, encoded⟩ : ∃ file, encode row 11 1 = .ok file := ⟨_, rfl⟩
  refine ⟨p, file, palette, encoded, ?_⟩
  rw [readGif_encode palette encoded]
  cases palette
  decide

end Mmemu.Guarantees.GifFrames
