import Mathlib.Tactic.IntervalCases
import Mmemu.Library.RingQueue
import Mmemu.Source.Disk2

/-!
# Disk II: 6-and-2 coding of a sector

Decoding the 343 nibbles of a sector gives its 256 bytes back, whatever was in the
buffer. Every value survives in its upper six bits; the low bits of three bytes
travel in one value, the last two of which have no first byte.
-/
namespace Mmemu.Guarantees.SectorCodec
open Mmemu.Source.Disk2

/-! ## Nibbles -/

theorem sixBit_diskByte (value : BitVec 8) :
    sixBit (diskByte (value >>> 2).toNat &&& 0x7F) = value &&& 0xFC := by
  revert value
  decide

theorem unchain_chain (saved : BitVec 8) (values : List (BitVec 8)) :
    unchain (saved &&& 0xFC) (((chain saved values).map (· &&& 0xFC)).take values.length) =
      values.map (· &&& 0xFC) := by
  induction values generalizing saved with
  | nil => simp [unchain]
  | cons value rest ih =>
    have value' : (saved &&& 0xFC) ^^^ ((saved ^^^ value) &&& 0xFC) = value &&& 0xFC := by
      grind
    simp only [chain, List.map_cons, List.length_cons, List.take_succ_cons, unchain, value', ih]

theorem chain_length (saved : BitVec 8) (values : List (BitVec 8)) :
    (chain saved values).length = values.length + 1 := by
  induction values generalizing saved with
  | nil => rfl
  | cons value rest ih => simp [chain, ih]

/-! ## Low bits -/

theorem offset_running {n : ℕ} (pos : 0 < n) (bound : n < 256) :
    (0x02 : BitVec 8) - BitVec.ofNat 8 n ≠ 0x02 := by
  intro stop
  have zero : BitVec.ofNat 8 n = 0 := by grind
  have nat := congrArg BitVec.toNat zero
  rw [BitVec.toNat_ofNat, Nat.mod_eq_of_lt bound] at nat
  exact pos.ne' nat

/-- A round later, one fewer is left. -/
theorem offset_grows (n : ℕ) :
    (0x02 : BitVec 8) - BitVec.ofNat 8 (n + 1) - 0x56 - 0x56 - 0x53 = 0x02 - BitVec.ofNat 8 n := by
  rw [BitVec.ofNat_add]
  grind

/-- `n` rounds before the end, the offset is `2 - n`. -/
theorem lowLoop_eq (sector : Sector) {n rounds : ℕ} (bound : n < 256) (enough : n < rounds) :
    lowLoop sector rounds (0x02 - BitVec.ofNat 8 n) =
      (List.range n).map fun k => lowBits sector (0x02 - BitVec.ofNat 8 n + BitVec.ofNat 8 k) := by
  induction n generalizing rounds with
  | zero =>
    obtain ⟨rounds, rfl⟩ := Nat.exists_eq_succ_of_ne_zero (by omega : rounds ≠ 0)
    rfl
  | succ n ih =>
    obtain ⟨rounds, rfl⟩ := Nat.exists_eq_succ_of_ne_zero (by omega : rounds ≠ 0)
    rw [lowLoop, if_neg (offset_running n.succ_pos bound), offset_grows, ih (by omega) (by omega),
      List.range_succ_eq_map, List.map_cons, List.map_map]
    congr 1
    · simp
    · apply List.map_congr_left
      intro k _
      have shift : (0x02 : BitVec 8) - BitVec.ofNat 8 n + BitVec.ofNat 8 k =
          0x02 - BitVec.ofNat 8 (n + 1) + BitVec.ofNat 8 (k + 1) := by
        rw [BitVec.ofNat_add, BitVec.ofNat_add]
        grind
      rw [shift]
      rfl

/-- What a round of the decoder takes from the low bits `low`. -/
structure Carries (sector : Sector) (offset low : BitVec 8) : Prop where
  first : 0xAC ≤ offset →
    ((low &&& 0x80) >>> 7) ||| ((low &&& 0x40) >>> 5) = sector offset &&& 0x03
  second : ((low &&& 0x20) >>> 5) ||| ((low &&& 0x10) >>> 3) = sector (offset - 0x56) &&& 0x03
  third : ((low &&& 0x08) >>> 3) ||| ((low &&& 0x04) >>> 1) =
    sector (offset - 0x56 - 0x56) &&& 0x03

theorem lowBits_carries (sector : Sector) (offset : BitVec 8) :
    Carries sector offset (lowBits sector offset &&& 0xFC) := by
  unfold lowBits add
  generalize first : sector offset = a, second : sector (offset - 0x56) = b,
    third : sector (offset - 0x56 - 0x56) = c
  refine ⟨fun _ => ?_, ?_, ?_⟩
  · rw [first]
    ext i hi
    interval_cases i <;> simp
  · rw [second]
    ext i hi
    interval_cases i <;> simp
  · rw [third]
    ext i hi
    interval_cases i <;> simp

/-- Behind the sector the first of three bytes does not count. -/
theorem maskedBits_carries (sector : Sector) {offset : BitVec 8} (behind : ¬0xAC ≤ offset) :
    Carries sector offset (lowBits sector offset &&& 0x3F &&& 0xFC) := by
  unfold lowBits add
  generalize sector offset = a, second : sector (offset - 0x56) = b,
    third : sector (offset - 0x56 - 0x56) = c
  refine ⟨fun h => absurd h behind, ?_, ?_⟩
  · rw [second]
    ext i hi
    interval_cases i <;> simp
  · rw [third]
    ext i hi
    interval_cases i <;> simp

/-! ## The decoder's loop -/

/-- The offsets a round writes. -/
def Written (offset o : BitVec 8) : Prop :=
  (0xAC ≤ offset ∧ o = offset) ∨ o = offset - 0x56 ∨ o = offset - 0x56 - 0x56

instance (offset o : BitVec 8) : Decidable (Written offset o) := instDecidableOr

theorem join (x : BitVec 8) : (x &&& 0xFC#8) ||| (x &&& 0x03) = x := by
  ext i hi
  interval_cases i <;> simp

/-- One round puts the sector's own bytes where it writes. -/
theorem decodeLoop_round (sector out high : Sector) {low offset : BitVec 8} (lows : List (BitVec 8))
    (upper : ∀ o, high o &&& 0xFC#8 = sector o &&& 0xFC#8) (carries : Carries sector offset low)
    (running : offset ≠ 0x02) :
    ∃ out', decodeLoop high (low :: lows) offset out =
        decodeLoop high lows (offset - 0x56 - 0x56 - 0x53) out' ∧
      ∀ o, out' o = if Written offset o then sector o else out o := by
  rw [decodeLoop, if_neg running]
  dsimp only
  rw [upper, upper, upper]
  refine ⟨_, rfl, fun o => ?_⟩
  rw [BitVec.or_assoc, BitVec.or_assoc, BitVec.or_assoc, carries.second, carries.third]
  rw [join, join]
  by_cases third : o = offset - 0x56 - 0x56
  · have written : Written offset o := Or.inr (Or.inr third)
    rw [if_pos written, third, Function.update_self]
  · rw [Function.update_of_ne third]
    by_cases second : o = offset - 0x56
    · have written : Written offset o := Or.inr (Or.inl second)
      rw [if_pos written, second, Function.update_self]
    · rw [Function.update_of_ne second]
      by_cases first : 0xAC ≤ offset
      · rw [if_pos first, carries.first first, join]
        by_cases here : o = offset
        · have written : Written offset o := Or.inl ⟨first, here⟩
          rw [if_pos written, here, Function.update_self]
        · have kept : ¬Written offset o := by
            rintro (⟨-, h⟩ | h | h)
            · exact here h
            · exact second h
            · exact third h
          rw [if_neg kept, Function.update_of_ne here]
      · have kept : ¬Written offset o := by
          rintro (⟨h, -⟩ | h | h)
          · exact first h
          · exact second h
          · exact third h
        rw [if_neg kept, if_neg first]

/-- The last `n` rounds restore what they write. -/
theorem decodeLoop_restores (sector high : Sector) {n : ℕ} (bound : n < 256)
    (upper : ∀ o, high o &&& 0xFC#8 = sector o &&& 0xFC#8) (lows : List (BitVec 8))
    (carries : ∀ k < n, ∃ low, lows[k]? = some low ∧
      Carries sector (0x02 - BitVec.ofNat 8 (n - k)) low) (out : Sector) (o : BitVec 8)
    (h : out o = sector o ∨ ∃ k < n, Written (0x02 - BitVec.ofNat 8 (n - k)) o) :
    decodeLoop high lows (0x02 - BitVec.ofNat 8 n) out o = sector o := by
  induction n generalizing lows out with
  | zero =>
    rcases h with done | ⟨k, hk, -⟩
    · cases lows with
      | nil => exact done
      | cons low lows =>
        rw [decodeLoop, if_pos (by decide)]
        exact done
    · exact absurd hk k.not_lt_zero
  | succ n ih =>
    obtain ⟨low, first, here⟩ := carries 0 n.succ_pos
    cases lows with
    | nil => cases first
    | cons low' lows =>
      cases Option.some.inj first
      rw [Nat.sub_zero] at here
      obtain ⟨out', step, written⟩ := decodeLoop_round sector out high lows upper here
        (offset_running n.succ_pos bound)
      rw [step, offset_grows]
      apply ih (by omega) lows
      · intro k hk
        obtain ⟨low, there, later⟩ := carries (k + 1) (by omega)
        refine ⟨low, by simpa using there, ?_⟩
        rwa [Nat.succ_sub_succ] at later
      · by_cases now : Written (0x02 - BitVec.ofNat 8 (n + 1)) o
        · exact Or.inl (by rw [written, if_pos now])
        · rcases h with done | ⟨k, hk, later⟩
          · exact Or.inl (by rw [written, if_neg now, done])
          · cases k with
            | zero => exact absurd later now
            | succ k =>
              rw [Nat.succ_sub_succ] at later
              exact Or.inr ⟨k, by omega, later⟩

/-! ## The sector -/

theorem lowLoop_sector (sector : Sector) :
    lowLoop sector 256 0xAC = (List.range 86).map fun k => lowBits sector (0xAC + BitVec.ofNat 8 k) :=
  lowLoop_eq sector (n := 86) (by decide) (by decide)

theorem maskLast_length (low : List (BitVec 8)) : (maskLast low).length = low.length :=
  List.length_mapIdx

theorem sixOf_length (sector : Sector) : (sixOf sector).length = 342 := by
  rw [sixOf, List.length_append, maskLast_length, lowLoop_sector, List.length_map, List.length_map,
    List.length_range, List.length_range]

theorem nibblizeSector_length (sector : Sector) : (nibblizeSector sector).length = 343 := by
  rw [nibblizeSector, List.length_map, chain_length, sixOf_length]

/-- The decoder's buffer holds the upper six bits of every value. -/
theorem decoded_values (sector : Sector) :
    unchain 0 ((((nibblizeSector sector).take 343).map fun nibble => sixBit (nibble &&& 0x7F)).take 342) =
      (sixOf sector).map (· &&& 0xFC) := by
  have whole : (nibblizeSector sector).take 343 = nibblizeSector sector :=
    List.take_of_length_le (nibblizeSector_length sector).le
  have values : (nibblizeSector sector).map (fun nibble => sixBit (nibble &&& 0x7F)) =
      (chain 0 (sixOf sector)).map (· &&& 0xFC) := by
    rw [nibblizeSector, List.map_map]
    exact List.map_congr_left fun value _ => sixBit_diskByte value
  have chained := unchain_chain 0 (sixOf sector)
  rw [sixOf_length] at chained
  rw [whole, values]
  exact chained

/-- The low bits in that buffer. -/
theorem low_values (sector : Sector) {k : ℕ} (hk : k < 86) :
    ∃ low, ((sixOf sector).map (· &&& 0xFC))[k]? = some low ∧
      Carries sector (0x02 - BitVec.ofNat 8 (86 - k)) low := by
  have offset : (0x02 : BitVec 8) - BitVec.ofNat 8 (86 - k) = 0xAC + BitVec.ofNat 8 k := by
    interval_cases k <;> rfl
  have length : (lowLoop sector 256 0xAC).length = 86 := by
    rw [lowLoop_sector, List.length_map, List.length_range]
  have value : (sixOf sector)[k]? = some (if 84 ≤ k then lowBits sector (0xAC + BitVec.ofNat 8 k) &&& 0x3F
      else lowBits sector (0xAC + BitVec.ofNat 8 k)) := by
    rw [sixOf, List.getElem?_append_left (by rw [maskLast_length, length]; exact hk), maskLast,
      List.getElem?_mapIdx, length, lowLoop_sector, List.getElem?_map, List.getElem?_range hk]
    have split : (86 ≤ k + 2) = (84 ≤ k) := by
      simp only [eq_iff_iff]
      omega
    simp only [Option.map_some, split]
  refine ⟨_, by rw [List.getElem?_map, value]; rfl, ?_⟩
  rw [offset]
  split
  · rename_i last
    apply maskedBits_carries
    interval_cases k <;> decide
  · exact lowBits_carries sector _

/-- The upper values in it. -/
theorem high_values (sector : Sector) (o : BitVec 8) :
    ((sixOf sector).map (· &&& 0xFC)).getD (0x56 + o.toNat) 0 &&& 0xFC#8 = sector o &&& 0xFC#8 := by
  have value : (sixOf sector)[0x56 + o.toNat]? = some (sector o) := by
    have length : (maskLast (lowLoop sector 256 0xAC)).length = 0x56 := by
      rw [maskLast_length, lowLoop_sector, List.length_map, List.length_range]
    have back : BitVec.ofNat 8 o.toNat = o := by simp
    rw [sixOf, List.getElem?_append_right (by omega), length, Nat.add_sub_cancel_left,
      List.getElem?_map, List.getElem?_range o.isLt, Option.map_some, back]
  rw [List.getD_eq_getElem?_getD, List.getElem?_map, value, Option.map_some, Option.getD_some,
    BitVec.and_assoc]
  rfl

/-- Every byte is written in one of the 86 rounds. -/
theorem written_somewhere (o : BitVec 8) : ∃ k < 86, Written (0x02 - BitVec.ofNat 8 (86 - k)) o := by
  refine ⟨o.toNat % 86, Nat.mod_lt _ (by decide), ?_⟩
  revert o
  decide

/-- Decoding what a sector was coded as gives the sector. -/
theorem denibblizeSector_nibblizeSector (sector out : Sector) {input : List (BitVec 8)}
    (coded : input.take 343 = nibblizeSector sector) : denibblizeSector input out = sector := by
  have buffer := decoded_values sector
  have again : (nibblizeSector sector).take 343 = nibblizeSector sector :=
    List.take_of_length_le (nibblizeSector_length sector).le
  rw [again] at buffer
  funext o
  unfold denibblizeSector
  rw [coded, buffer]
  exact decodeLoop_restores sector _ (n := 86) (by decide) (high_values sector) _
    (fun k hk => low_values sector hk) out o (Or.inr (written_somewhere o))

end Mmemu.Guarantees.SectorCodec

/-!
# Disk II: nibblizing and denibblizing a track

`$D5` stands in a track only where a field begins, and the fields follow each other
round the track. So from any start 33 of them are found one after the other, with 16
data fields each behind its own address field, and every sector comes back.
-/
namespace Mmemu.Guarantees.DiskRoundTrip
open Mmemu.Source.Disk2 Mmemu.Library.CyclicBuffer Mmemu.Guarantees.SectorCodec

/-! ## Where `$D5` stands -/

theorem diskByte_ne_prologue (value : BitVec 8) : diskByte (value >>> 2).toNat ≠ 0xD5 := by
  revert value
  decide

theorem nibblizeSector_ne_prologue (sector : Sector) {i : ℕ} (h : i < 343) :
    (nibblizeSector sector).getD i 0 ≠ 0xD5 := by
  have inside : i < (nibblizeSector sector).length := by rwa [nibblizeSector_length]
  rw [List.getD_eq_getElem _ _ inside]
  simp only [nibblizeSector, List.getElem_map]
  exact diskByte_ne_prologue _

theorem split44 : ∀ v : BitVec 8, a44 v ≠ 0xD5 ∧ b44 v ≠ 0xD5 ∧
    ((a44 v &&& 0x55) <<< 1) ||| (b44 v &&& 0x55) = v := by
  decide

theorem a44_ne_prologue (v : BitVec 8) : a44 v ≠ 0xD5 := (split44 v).1

theorem b44_ne_prologue (v : BitVec 8) : b44 v ≠ 0xD5 := (split44 v).2.1

theorem decode44 (v : BitVec 8) : ((a44 v &&& 0x55) <<< 1) ||| (b44 v &&& 0x55) = v :=
  (split44 v).2.2

section Fields
variable (volume t sec : BitVec 8) (sector : Sector)

theorem sectorFields_length : (sectorFields volume t sec sector).length = 396 := by
  simp [sectorFields, addressField, dataField, nibblizeSector_length]

theorem sectorFields_split : sectorFields volume t sec sector =
    (addressField volume t sec ++ List.replicate 6 0xFF ++ [0xD5, 0xAA, 0xAD]) ++
      (nibblizeSector sector ++ ([0xDE, 0xAA, 0xEB] ++ List.replicate 27 0xFF)) := by
  simp [sectorFields, dataField]

theorem sectorFields_header {r : ℕ} (h : r < 23) : (sectorFields volume t sec sector).getD r 0 =
    (addressField volume t sec ++ List.replicate 6 0xFF ++ [0xD5, 0xAA, 0xAD]).getD r 0 := by
  rw [sectorFields_split, List.getD_append _ _ _ _ (by exact h)]

theorem sectorFields_data {i : ℕ} (h : i < 343) : (sectorFields volume t sec sector).getD (23 + i) 0 =
    (nibblizeSector sector).getD i 0 := by
  have header : (addressField volume t sec ++ List.replicate 6 0xFF ++ [0xD5, 0xAA, 0xAD]).length = 23 :=
    rfl
  rw [sectorFields_split, List.getD_append_right _ _ _ _ (by omega), header, Nat.add_sub_cancel_left,
    List.getD_append _ _ _ _ (by rwa [nibblizeSector_length])]

theorem sectorFields_tail {i : ℕ} (h : i < 30) : (sectorFields volume t sec sector).getD (366 + i) 0 =
    (([0xDE, 0xAA, 0xEB] : List (BitVec 8)) ++ List.replicate 27 0xFF).getD i 0 := by
  have header : (addressField volume t sec ++ List.replicate 6 0xFF ++ [0xD5, 0xAA, 0xAD]).length = 23 :=
    rfl
  have place : 366 + i - 23 - 343 = i := by omega
  rw [sectorFields_split, List.getD_append_right _ _ _ _ (by omega), header,
    List.getD_append_right _ _ _ _ (by rw [nibblizeSector_length]; omega), nibblizeSector_length,
    place]

theorem sectorFields_ne_prologue {r : ℕ} (h : r < 396) (zero : r ≠ 0) (twenty : r ≠ 20) :
    (sectorFields volume t sec sector).getD r 0 ≠ 0xD5 := by
  rcases Nat.lt_or_ge r 23 with header | data
  · rw [sectorFields_header _ _ _ _ header]
    have fixed : ∀ v ∈ [0xAA#8, 0x96, 0xDE, 0xEB, 0xFF, 0xAD], v ≠ 0xD5 := by decide
    interval_cases r
    · exact absurd rfl zero
    · exact fixed 0xAA (by decide)
    · exact fixed 0x96 (by decide)
    · exact a44_ne_prologue _
    · exact b44_ne_prologue _
    · exact a44_ne_prologue _
    · exact b44_ne_prologue _
    · exact a44_ne_prologue _
    · exact b44_ne_prologue _
    · exact a44_ne_prologue _
    · exact b44_ne_prologue _
    · exact fixed 0xDE (by decide)
    · exact fixed 0xAA (by decide)
    · exact fixed 0xEB (by decide)
    iterate 6 · exact fixed 0xFF (by decide)
    · exact absurd rfl twenty
    · exact fixed 0xAA (by decide)
    · exact fixed 0xAD (by decide)
  · rcases Nat.lt_or_ge r 366 with nibble | tail
    · obtain ⟨i, rfl⟩ := Nat.exists_eq_add_of_le data
      rw [sectorFields_data _ _ _ _ (by omega)]
      exact nibblizeSector_ne_prologue sector (by omega)
    · obtain ⟨i, rfl⟩ := Nat.exists_eq_add_of_le tail
      rw [sectorFields_tail _ _ _ _ (by omega)]
      have small : i < 30 := by omega
      interval_cases i <;> decide

end Fields

/-! ## The endless track -/

section Stream
variable (order : Order) (volume t : BitVec 8) (data : Track)

theorem nibblize_length : (nibblize order volume t data).length = 6384 := by
  simp [nibblize, List.length_flatMap, sectorFields_length]

/-- The nibbles that pass the head, from the start of the track on. -/
def stream (x : ℕ) : BitVec 8 := cyclic (nibblize order volume t data) 0 x

theorem stream_gap (q : ℕ) {j : ℕ} (h : j < 48) : stream order volume t data (6384 * q + j) = 0xFF := by
  have length := nibblize_length order volume t data
  have first := cyclic_add_mul (nibblize order volume t data) 0 j q
  rw [length] at first
  rw [stream, first, cyclic_of_lt _ _ (by omega), nibblize, List.getD_append _ _ _ _ (by simpa using h),
    List.getD_replicate _ h]

theorem stream_field (q : ℕ) {s r : ℕ} (hs : s < 16) (hr : r < 396) :
    stream order volume t data (6384 * q + (48 + 396 * s + r)) =
      (sectorFields volume t (BitVec.ofNat 8 s) (data.sector (sectorNumber order s))).getD r 0 := by
  have length := nibblize_length order volume t data
  have first := cyclic_add_mul (nibblize order volume t data) 0 (48 + 396 * s + r) q
  rw [length] at first
  have gap : (List.replicate 48 (0xFF : BitVec 8)).length = 48 := List.length_replicate
  have place : 48 + 396 * s + r - 48 = 396 * s + r := by omega
  rw [stream, first, cyclic_of_lt _ _ (by omega), nibblize, List.getD_append_right _ _ _ _ (by omega),
    gap, place, getD_flatMap_range _ _ (fun s => sectorFields_length _ _ _ _) hs hr]

/-- Where the `m`-th field begins: address fields are even, data fields odd. -/
def marker (m : ℕ) : ℕ := 6384 * (m / 32) + (48 + 396 * (m % 32 / 2) + 20 * (m % 2))

theorem marker_succ (m : ℕ) : marker m + 20 ≤ marker (m + 1) ∧ marker (m + 1) ≤ marker m + 424 := by
  unfold marker
  omega

/-- Nibble `r` behind the start of a field, if it is still in its sector. -/
theorem stream_marker (m : ℕ) {r : ℕ} (h : 20 * (m % 2) + r < 396) :
    stream order volume t data (marker m + r) =
      (sectorFields volume t (BitVec.ofNat 8 (m % 32 / 2))
        (data.sector (sectorNumber order (m % 32 / 2)))).getD (20 * (m % 2) + r) 0 := by
  have place : marker m + r = 6384 * (m / 32) + (48 + 396 * (m % 32 / 2) + (20 * (m % 2) + r)) := by
    unfold marker
    omega
  rw [place, stream_field order volume t data (m / 32) (by omega) h]

theorem stream_prologue (m : ℕ) : stream order volume t data (marker m) = 0xD5 ∧
    stream order volume t data (marker m + 1) = 0xAA ∧
    stream order volume t data (marker m + 2) = if m % 2 = 0 then 0x96 else 0xAD := by
  have nibble : ∀ r < 3, stream order volume t data (marker m + r) =
      ([0xD5, 0xAA, if m % 2 = 0 then 0x96 else 0xAD] : List (BitVec 8)).getD r 0 := by
    intro r hr
    rw [stream_marker order volume t data m (by omega), sectorFields_header _ _ _ _ (by omega)]
    rcases Nat.mod_two_eq_zero_or_one m with even | odd
    · rw [even, if_pos rfl]
      interval_cases r <;> rfl
    · rw [odd, if_neg one_ne_zero]
      interval_cases r <;> rfl
  exact ⟨nibble 0 (by decide), nibble 1 (by decide), nibble 2 (by decide)⟩

/-- Between two fields there is no `$D5`. -/
theorem stream_quiet (m : ℕ) {x : ℕ} (after : marker m < x) (before : x < marker (m + 1)) :
    stream order volume t data x ≠ 0xD5 := by
  obtain ⟨r, rfl⟩ := Nat.exists_eq_add_of_lt after
  rcases Nat.lt_or_ge (20 * (m % 2) + (r + 1)) 396 with inside | gap
  · rw [Nat.add_assoc, stream_marker order volume t data m inside]
    apply sectorFields_ne_prologue _ _ _ _ inside
    · omega
    · unfold marker at before
      omega
  · -- past the last sector, in the gap the next turn begins with
    have place : marker m + r + 1 = 6384 * (m / 32 + 1) + (20 * (m % 2) + (r + 1) - 396) := by
      unfold marker at before ⊢
      omega
    rw [place, stream_gap]
    · decide
    · unfold marker at before
      omega

end Stream

/-! ## Finding a field -/

theorem search_skip {track : List (BitVec 8)} {i : ℕ} (loop : ℕ) (other : track.getD i 0 ≠ 0xD5) :
    search track (loop + 1) i [] = search track loop (next track.length i) [] := by
  rw [search, if_pos (by decide)]
  dsimp only
  rw [if_neg (by decide), if_neg other]

theorem search_hit {track : List (BitVec 8)} {i : ℕ} (loop : ℕ) (hit : track.getD i 0 = 0xD5) :
    search track (loop + 1) i [] = search track loop (next track.length i) [0xD5] := by
  rw [search, if_pos (by decide)]
  dsimp only
  rw [if_neg (by decide), if_pos hit, hit]

theorem search_take (track : List (BitVec 8)) (loop i : ℕ) {v : List (BitVec 8)} (begun : v ≠ [])
    (short : v.length < 3) :
    search track (loop + 1) i v = search track loop (next track.length i) (v ++ [track.getD i 0]) := by
  rw [search, if_pos short]
  dsimp only
  rw [if_pos begun]

theorem search_done (track : List (BitVec 8)) (loop i : ℕ) {v : List (BitVec 8)} (full : v.length = 3) :
    search track loop i v = (i, v) := by
  cases loop with
  | zero => rfl
  | succ loop => rw [search, if_neg (by omega)]

section Search
variable {l : List (BitVec 8)} {k i x : ℕ}

theorem standsFor_next (h : StandsFor l.length k i x) :
    StandsFor l.length k (next (l.rotate k).length i) (x + 1) := by
  rw [List.length_rotate]
  exact h.next

/-- From any position on, the search stops behind the next `$D5` and its two nibbles. -/
theorem search_finds {y : ℕ} (loop : ℕ) (h : StandsFor l.length k i x) (le : x ≤ y)
    (quiet : ∀ z, x ≤ z → z < y → cyclic l 0 z ≠ 0xD5) (hit : cyclic l 0 y = 0xD5)
    (enough : y - x + 3 ≤ loop) :
    ∃ i', search (l.rotate k) loop i [] = (i', [0xD5, cyclic l 0 (y + 1), cyclic l 0 (y + 2)]) ∧
      StandsFor l.length k i' (y + 3) := by
  obtain ⟨n, rfl⟩ := Nat.exists_eq_add_of_le le
  induction n generalizing i x loop with
  | zero =>
    obtain ⟨loop, rfl⟩ := Nat.exists_eq_add_of_le' (show 3 ≤ loop by omega)
    have second := standsFor_next h
    have third := standsFor_next second
    refine ⟨_, ?_, standsFor_next third⟩
    rw [search_hit _ ((h.getD 0).trans hit), search_take _ _ _ (by decide) (by decide), second.getD,
      search_take _ _ _ (v := [0xD5] ++ [cyclic l 0 (x + 1)]) (by simp) (by simp), third.getD, search_done _ _ _ rfl]
    rfl
  | succ n ih =>
    obtain ⟨loop, rfl⟩ := Nat.exists_eq_add_of_le' (show 1 ≤ loop by omega)
    have here := quiet x le_rfl (by omega)
    have place : x + (n + 1) = x + 1 + n := by omega
    rw [place] at hit quiet ⊢
    rw [search_skip _ (by rwa [h.getD])]
    exact ih loop (standsFor_next h) (by omega) (fun z after => quiet z (by omega)) hit (by omega)

theorem window_length (track : List (BitVec 8)) (count i : ℕ) : (window track count i).length = count := by
  induction count generalizing i with
  | zero => rfl
  | succ count ih => exact congrArg (· + 1) (ih _)

theorem window_getD (h : StandsFor l.length k i x) {count j : ℕ} (hj : j < count) :
    (window (l.rotate k) count i).getD j 0 = cyclic l 0 (x + j) := by
  induction count generalizing i x j with
  | zero => exact absurd hj j.not_lt_zero
  | succ count ih =>
    cases j with
    | zero => exact h.getD 0
    | succ j =>
      have rest := ih (standsFor_next h) (by omega : j < count)
      rw [Nat.add_right_comm] at rest
      exact rest

end Search

/-! ## Decoding the fields in turn -/

section Decode
variable (order : Order) (volume t : BitVec 8) (data : Track) (k : ℕ)

/-- The decoder has passed the stream up to `x`, and the `m`-th field is next. -/
structure OnWay (d : Decoder) (m x : ℕ) : Prop where
  stands : StandsFor 6384 k d.offset x
  before : x ≤ marker m
  quiet : ∀ z, x ≤ z → z < marker m → stream order volume t data z ≠ 0xD5
  near : marker m ≤ x + 424

/-- Past the prologue of a field, the decoder is on the way to the next. -/
theorem OnWay.next {d : Decoder} {m : ℕ} (stands : StandsFor 6384 k d.offset (marker m + 3)) :
    OnWay order volume t data k d (m + 1) (marker m + 3) := by
  obtain ⟨far, near⟩ := marker_succ m
  exact ⟨stands, by omega, fun z after before => stream_quiet order volume t data m (by omega) before,
    by omega⟩

/-- What the decoder does at its next field. -/
theorem decodePart_field {d : Decoder} {m x : ℕ} (h : OnWay order volume t data k d m x) :
    ∃ i, ∃ work : List (BitVec 8), StandsFor 6384 k i (marker m + 3) ∧ work.length = 384 ∧
      (∀ j < 384, work.getD j 0 = stream order volume t data (marker m + 3 + j)) ∧
      decodePart order ((nibblize order volume t data).rotate k) d =
        if m % 2 = 0 then
          { d with offset := i,
                   sector := some (((work.getD 4 0 &&& 0x55) <<< 1) ||| (work.getD 5 0 &&& 0x55)) }
        else
          { d with
            offset := i
            sector := some 0
            out :=
              match d.sector with
              | none => d.out
              | some sector =>
                if sector < 16 then
                  d.out.setSector (sectorNumber order sector.toNat)
                    (denibblizeSector work (d.out.sector (sectorNumber order sector.toNat)))
                else d.out } := by
  have length := nibblize_length order volume t data
  obtain ⟨first, second, third⟩ := stream_prologue order volume t data m
  have near := h.near
  have stands := h.stands
  rw [← length] at stands
  obtain ⟨i, found, behind⟩ := search_finds 6384 stands h.before h.quiet first (by omega)
  refine ⟨i, window ((nibblize order volume t data).rotate k) 384 i, ?_, ?_, ?_, ?_⟩
  · rwa [length] at behind
  · exact window_length _ _ _
  · exact fun j hj => window_getD behind hj
  · unfold stream at second third
    rw [decodePart, List.length_rotate, length, found, second, third]
    rcases Nat.mod_two_eq_zero_or_one m with even | odd
    · rw [even]
      rfl
    · rw [odd]
      rfl

/-- An address field tells the sector. -/
theorem decode_address {d : Decoder} {m x : ℕ} (h : OnWay order volume t data k d m x)
    (even : m % 2 = 0) :
    let d' := decodePart order ((nibblize order volume t data).rotate k) d
    OnWay order volume t data k d' (m + 1) (marker m + 3) ∧
      d'.sector = some (BitVec.ofNat 8 (m % 32 / 2)) ∧ d'.out = d.out := by
  obtain ⟨i, work, stands, -, nibble, step⟩ := decodePart_field order volume t data k h
  have value : ∀ j < 2, work.getD (4 + j) 0 =
      [a44 (BitVec.ofNat 8 (m % 32 / 2)), b44 (BitVec.ofNat 8 (m % 32 / 2))].getD j 0 := by
    intro j hj
    rw [nibble _ (by omega), Nat.add_assoc, stream_marker order volume t data m (by omega), even,
      sectorFields_header _ _ _ _ (by omega)]
    interval_cases j <;> rfl
  rw [step, if_pos even]
  refine ⟨OnWay.next order volume t data k stands, ?_, rfl⟩
  have a := value 0 (by decide)
  have b := value 1 (by decide)
  rw [Nat.add_zero] at a
  dsimp only
  rw [a, b]
  exact congrArg some (decode44 _)

/-- Without a sector a data field is skipped. -/
theorem decode_skipped {d : Decoder} {m x : ℕ} (h : OnWay order volume t data k d m x)
    (odd : m % 2 = 1) (unknown : d.sector = none) :
    let d' := decodePart order ((nibblize order volume t data).rotate k) d
    OnWay order volume t data k d' (m + 1) (marker m + 3) ∧ d'.out = d.out := by
  obtain ⟨i, work, stands, -, -, step⟩ := decodePart_field order volume t data k h
  rw [step, if_neg (by omega), unknown]
  exact ⟨OnWay.next order volume t data k stands, rfl⟩

/-- With its own, it is decoded into the sector it came from. -/
theorem decode_data {d : Decoder} {m x : ℕ} (h : OnWay order volume t data k d m x)
    (odd : m % 2 = 1) (known : d.sector = some (BitVec.ofNat 8 (m % 32 / 2))) :
    let d' := decodePart order ((nibblize order volume t data).rotate k) d
    OnWay order volume t data k d' (m + 1) (marker m + 3) ∧
      d'.out = d.out.setSector (sectorNumber order (m % 32 / 2))
        (data.sector (sectorNumber order (m % 32 / 2))) := by
  obtain ⟨i, work, stands, long, nibble, step⟩ := decodePart_field order volume t data k h
  have index : (BitVec.ofNat 8 (m % 32 / 2)).toNat = m % 32 / 2 := by
    rw [BitVec.toNat_ofNat]
    omega
  have valid : BitVec.ofNat 8 (m % 32 / 2) < 16 := by
    rw [BitVec.lt_def, index]
    exact (by omega : m % 32 / 2 < 16)
  have coded : work.take 343 = nibblizeSector (data.sector (sectorNumber order (m % 32 / 2))) := by
    apply List.ext_getElem
    · rw [List.length_take, long, nibblizeSector_length]
      rfl
    · intro j hj hj'
      rw [nibblizeSector_length] at hj'
      have field := nibble j (by omega)
      rw [Nat.add_assoc, stream_marker order volume t data m (by omega), odd, ← Nat.add_assoc,
        sectorFields_data _ _ _ _ hj', List.getD_eq_getElem _ _ (by omega),
        List.getD_eq_getElem _ _ (by rwa [nibblizeSector_length])] at field
      rw [List.getElem_take, field]
  rw [step, if_neg (by omega), known]
  refine ⟨OnWay.next order volume t data k stands, ?_⟩
  dsimp only
  rw [if_pos valid, index, denibblizeSector_nibblizeSector _ _ coded]

/-! ## All sectors -/

/-- A byte's place is its sector and its offset there. -/
theorem place_append (i : BitVec 12) :
    ((i >>> 8).setWidth 4 : BitVec 4) ++ (i.setWidth 8 : BitVec 8) = i := by
  apply BitVec.eq_of_getLsbD_eq
  intro j inside
  rw [BitVec.getLsbD_append]
  split
  next low => simp [low]
  next high =>
    have four : j - 8 < 4 := by omega
    have back : 8 + (j - 8) = j := by omega
    simp [four, back]

theorem setSector_eq_of_eq {out data : Track} (n : BitVec 4) {i : BitVec 12}
    (h : out i = data i ∨ (i >>> 8).setWidth 4 = n) :
    out.setSector n (data.sector n) i = data i := by
  unfold Track.setSector Track.sector
  split
  · rename_i here
    rw [← here, place_append]
  · rename_i other
    exact h.resolve_right other

/-- An address field and its data field restore a sector. -/
theorem decode_pair {d : Decoder} {m x : ℕ} (h : OnWay order volume t data k d m x)
    (even : m % 2 = 0) :
    let d' := (decodePart order ((nibblize order volume t data).rotate k))^[2] d
    (∃ x', OnWay order volume t data k d' (m + 2) x') ∧
      d'.out = d.out.setSector (sectorNumber order (m % 32 / 2))
        (data.sector (sectorNumber order (m % 32 / 2))) := by
  obtain ⟨onWay, sector, out⟩ := decode_address order volume t data k h even
  have same : (m + 1) % 32 / 2 = m % 32 / 2 := by omega
  obtain ⟨onWay', out'⟩ := decode_data order volume t data k onWay (by omega) (by rw [sector, same])
  rw [out, same] at out'
  exact ⟨⟨_, onWay'⟩, out'⟩

/-- After `p` pairs the sectors they passed are those of the image. -/
theorem decode_pairs (p : ℕ) {d : Decoder} {m x : ℕ} (h : OnWay order volume t data k d m x)
    (even : m % 2 = 0) :
    let d' := (decodePart order ((nibblize order volume t data).rotate k))^[2 * p] d
    (∃ x', OnWay order volume t data k d' (m + 2 * p) x') ∧
      ∀ i : BitVec 12, (∃ j < p, (i >>> 8).setWidth 4 = sectorNumber order ((m + 2 * j) % 32 / 2)) →
        d'.out i = data i := by
  induction p with
  | zero => exact ⟨⟨x, h⟩, fun i ⟨j, hj, _⟩ => absurd hj j.not_lt_zero⟩
  | succ p ih =>
    obtain ⟨⟨x', onWay⟩, restored⟩ := ih
    obtain ⟨next, out⟩ := decode_pair order volume t data k onWay (by omega)
    have count : 2 * (p + 1) = 2 + 2 * p := by omega
    rw [count, Function.iterate_add_apply]
    refine ⟨?_, ?_⟩
    · rw [Nat.add_comm 2, ← Nat.add_assoc]
      exact next
    · rintro i ⟨j, hj, here⟩
      rw [out]
      apply setSector_eq_of_eq
      rcases Nat.lt_succ_iff_lt_or_eq.mp hj with before | rfl
      · exact Or.inl (restored i ⟨j, before, here⟩)
      · exact Or.inr here

theorem sectorNumber_onto (order : Order) : ∀ n : BitVec 4, ∃ s < 16, n = sectorNumber order s := by
  cases order <;> decide

/-- Sixteen pairs pass every sector. -/
theorem decode_turn {d : Decoder} {m x : ℕ} (h : OnWay order volume t data k d m x)
    (even : m % 2 = 0) :
    let d' := (decodePart order ((nibblize order volume t data).rotate k))^[32] d
    (∃ x', OnWay order volume t data k d' (m + 32) x') ∧ d'.out = data := by
  obtain ⟨onWay, restored⟩ := decode_pairs order volume t data k 16 h even
  refine ⟨onWay, funext fun i => restored i ?_⟩
  obtain ⟨s, hs, here⟩ := sectorNumber_onto order ((i >>> 8).setWidth 4)
  refine ⟨(s + 16 - m % 32 / 2) % 16, Nat.mod_lt _ (by decide), ?_⟩
  have place : (m + 2 * ((s + 16 - m % 32 / 2) % 16)) % 32 / 2 = s := by omega
  rw [place, here]

theorem marker_ge (m : ℕ) : 20 * m ≤ marker m := by
  induction m with
  | zero => exact Nat.zero_le _
  | succ m ih =>
    have grows := (marker_succ m).1
    omega

/-- Wherever the head starts, some field is next. -/
theorem onWay_start : ∃ m x, OnWay order volume t data k
    { offset := 0, sector := none, out := fun _ => 0 } m x := by
  have start : StandsFor 6384 k 0 (6384 + k % 6384) := ⟨by decide, by omega⟩
  have some : ∃ m, 6384 + k % 6384 ≤ marker m := by
    refine ⟨6384 + k % 6384, ?_⟩
    have far := marker_ge (6384 + k % 6384)
    omega
  classical
  obtain ⟨reached, least⟩ := (Nat.find_eq_iff some).mp rfl
  cases first : Nat.find some with
  | zero =>
    rw [first] at reached
    have here : marker 0 = 48 := rfl
    omega
  | succ m =>
    rw [first] at reached least
    have passed := least m (Nat.lt_succ_self m)
    have near := (marker_succ m).2
    refine ⟨m + 1, 6384 + k % 6384, start, reached, ?_, by omega⟩
    exact fun z after before => stream_quiet order volume t data m (by omega) before

end Decode

/-- Every rotation of a track's nibbles decodes to the track. -/
theorem denibblize_rotate_nibblize (order : Order) (volume t : BitVec 8) (data : Track) (k : ℕ) :
    denibblize order ((nibblize order volume t data).rotate k) = data := by
  obtain ⟨m, x, start⟩ := onWay_start order volume t data k
  unfold denibblize
  rcases Nat.mod_two_eq_zero_or_one m with even | odd
  · obtain ⟨⟨x', onWay⟩, out⟩ := decode_turn order volume t data k start even
    obtain ⟨-, -, kept⟩ := decode_address order volume t data k onWay (by omega)
    rw [show 16 * 2 + 1 = 1 + 32 from rfl, Function.iterate_add_apply]
    exact kept.trans out
  · obtain ⟨onWay, -⟩ := decode_skipped order volume t data k start odd rfl
    obtain ⟨-, out⟩ := decode_turn order volume t data k onWay (by omega)
    exact out

theorem append_toNat (n : BitVec 4) (offset : BitVec 8) :
    (n ++ offset).toNat = 256 * n.toNat + offset.toNat := by
  rw [BitVec.toNat_append, ← Nat.shiftLeft_add_eq_or_of_lt offset.isLt, Nat.shiftLeft_eq,
    Nat.mul_comm]

/-- Byte `offset` of sector `n` comes back from where it lies in the image. -/
theorem denibblize_rotate_image (img : Disk2Image) (volume : BitVec 8) (track k : ℕ) (n : BitVec 4)
    (offset : BitVec 8) :
    denibblize img.order
        ((nibblize img.order volume (BitVec.ofNat 8 track) (img.track track)).rotate k) (n ++ offset) =
      img.data (trackBytes * track + 256 * n.toNat + offset.toNat) := by
  rw [denibblize_rotate_nibblize, Disk2Image.track, append_toNat, Nat.add_assoc]

/-- Reading a track, from any point of it, and writing it back changes nothing. -/
theorem writeTrack_readTrack (img : Disk2Image) (track k : ℕ) (skew : Bool) (sectors : img.order ≠ .nib) :
    writeTrack img track ((readTrack img track skew).rotate k) = img := by
  unfold writeTrack
  split
  · rfl
  · rename_i writable
    have present : ¬img.tracks ≤ track := fun h => writable (Or.inl h)
    have nibbles : ∃ k', (readTrack img track skew).rotate k =
        (nibblize img.order defaultVolume (BitVec.ofNat 8 track) (img.track track)).rotate k' := by
      unfold readTrack
      rw [if_neg present, if_neg sectors]
      dsimp only
      split
      · exact ⟨_, List.rotate_rotate _ _ _⟩
      · exact ⟨k, rfl⟩
    obtain ⟨k', turned⟩ := nibbles
    rw [turned, denibblize_rotate_nibblize]
    have same : (fun i => if trackBytes * track ≤ i ∧ i - trackBytes * track < trackBytes then
        img.track track (BitVec.ofNat 12 (i - trackBytes * track)) else img.data i) = img.data := by
      funext i
      split
      · rename_i inside
        have place : trackBytes * track + (i - trackBytes * track) % 2 ^ 12 = i := by
          unfold trackBytes at inside ⊢
          omega
        rw [Disk2Image.track, BitVec.toNat_ofNat, place]
      · rfl
    dsimp only
    rw [same]

/-- A track of a blank disk, read from its middle. -/
theorem writeTrack_readTrack_blank :
    writeTrack ⟨fun _ => 0, .dos, 35, false⟩ 17 ((readTrack ⟨fun _ => 0, .dos, 35, false⟩ 17 true).rotate 3000) =
      ⟨fun _ => 0, .dos, 35, false⟩ :=
  writeTrack_readTrack _ 17 3000 true (by decide)

end Mmemu.Guarantees.DiskRoundTrip
