import Mathlib.Data.Fintype.EquivFin
import Mmemu.Guarantees.ImdDisks

/-!
# The sectors of a formatted track

Each turn of the loop that lays out a track finds a free place, so none of those that earlier turns
took. The places of all turns are then all of the track's, one for each turn.
-/
namespace Mmemu.Guarantees.SectorInterleave
open Mmemu.Source.Imd Mmemu.Guarantees.ImdRoundTrip

/-- What the loop over the sectors of a track is given. -/
structure Order where
  sectors : ℕ
  sizeCode : ℕ
  firstSector : ℕ
  interleave : ℕ
  fill : Byte
  table : List Byte
  logical : ℕ
  head : Byte

namespace Order
variable (o : Order)

/-- The track after some turns of the loop. -/
def turn (i : ℕ) : Layout :=
  (List.range i).foldl
    (place o.sectors o.sizeCode o.firstSector o.interleave o.fill o.table (BitVec.ofNat 8 o.logical) o.head)
    (blank o.sectors)

/-- The track that a cylinder gets. -/
def track (cyl : ℕ) : Track :=
  formatTrack o.sectors o.sizeCode o.firstSector o.interleave o.fill o.table cyl o.logical o.head

/-- The place that a turn takes. -/
def slot (i : ℕ) : ℕ :=
  if o.sectors ≤ o.table.length then i else firstFree (o.turn i).used o.sectors o.sectors (o.turn i).pos

/-- The logical ID of a turn's sector. -/
def logicalId (i : ℕ) : Byte :=
  if o.sectors ≤ o.table.length then o.table.getD i 0 else BitVec.ofNat 8 (o.firstSector + i)

variable {o}

theorem turn_succ (o : Order) (i : ℕ) : o.turn (i + 1) =
    place o.sectors o.sizeCode o.firstSector o.interleave o.fill o.table (BitVec.ofNat 8 o.logical) o.head
      (o.turn i) i := by
  rw [turn, List.range_succ, List.foldl_append, List.foldl_cons, List.foldl_nil]
  rfl

theorem laid_turn (o : Order) (i : ℕ) : ∃ s : Sector, s.id = o.logicalId i ∧
    (o.turn (i + 1)).placed = (o.turn i).placed.set (o.slot i) s ∧
    (o.turn (i + 1)).used = (o.turn i).used.set (o.slot i) true := by
  refine ⟨{ id := o.logicalId i, cyl := BitVec.ofNat 8 o.logical, head := o.head, type := 1,
            data := List.replicate (128 <<< o.sizeCode) o.fill }, rfl, ?_, ?_⟩
  · rw [turn_succ]
    rfl
  · rw [turn_succ]
    rfl

theorem laid (some_ : 0 < o.sectors) {i : ℕ} (most : i ≤ o.sectors) :
    Laid o.sectors i (Fresh (128 <<< o.sizeCode) (BitVec.ofNat 8 o.logical) o.head) (o.turn i) :=
  (laid_range _ o.head some_ most).1

/-- Where there is no table of all sectors, the search of a turn ends. -/
theorem searched {i : ℕ} (turn_ : i < o.sectors) (untabled : o.table.length < o.sectors) :
    Search (o.turn i).used o.sectors (o.turn i).pos (o.slot i) := by
  rw [slot, if_neg (by omega)]
  exact (laid (by omega) (Nat.le_of_lt turn_)).search turn_

theorem slot_free {i : ℕ} (turn_ : i < o.sectors) : (o.turn i).used[o.slot i]? = some false := by
  by_cases tabled : o.sectors ≤ o.table.length
  · rw [slot, if_pos tabled]
    exact (laid_range _ o.head (by omega) (Nat.le_of_lt turn_)).2 tabled i (Nat.le_refl i) turn_
  · exact (searched turn_ (by omega)).free

theorem slot_lt {i : ℕ} (turn_ : i < o.sectors) : o.slot i < o.sectors := by
  obtain ⟨bound, _⟩ := List.getElem?_eq_some_iff.mp (slot_free turn_)
  rwa [(laid (by omega) (Nat.le_of_lt turn_)).marks] at bound

/-- What a turn laid stays where it is. -/
theorem holds {turns : ℕ} (most : turns ≤ o.sectors) {i : ℕ} (done : i < turns) :
    (o.turn turns).used[o.slot i]? = some true ∧
      ((o.turn turns).placed[o.slot i]?).map Sector.id = some (o.logicalId i) := by
  induction turns with
  | zero => omega
  | succ turns ih =>
    obtain ⟨s, id, placed, used⟩ := o.laid_turn turns
    have now : turns < o.sectors := most
    have here := slot_lt now
    have before := laid (o := o) (by omega) (Nat.le_of_lt now)
    rw [placed, used]
    by_cases last : i = turns
    · subst last
      rw [List.getElem?_set_self (by rwa [before.marks]), List.getElem?_set_self (by rwa [before.places])]
      exact ⟨rfl, congrArg some id⟩
    · obtain ⟨taken, held⟩ := ih (Nat.le_of_lt now) (by omega)
      have apart : o.slot turns ≠ o.slot i := by
        intro same
        rw [← same, slot_free now] at taken
        cases taken
      rw [List.getElem?_set_ne apart, List.getElem?_set_ne apart]
      exact ⟨taken, held⟩

theorem slot_injective {i j : ℕ} (lt : i < j) (turn_ : j < o.sectors) : o.slot i ≠ o.slot j := by
  intro same
  have taken := (holds (Nat.le_of_lt turn_) lt).1
  rw [same, slot_free turn_] at taken
  cases taken

/-- The places of the turns, as a permutation. -/
theorem exists_perm : ∃ σ : Equiv.Perm (Fin o.sectors), ∀ i, (σ i).val = o.slot i := by
  let f : Fin o.sectors → Fin o.sectors := fun i => ⟨o.slot i, slot_lt i.isLt⟩
  have injective : Function.Injective f := by
    intro i j same
    have same : o.slot i = o.slot j := congrArg Fin.val same
    rcases Nat.lt_trichotomy i j with lt | eq | gt
    · exact absurd same (slot_injective lt j.isLt)
    · exact Fin.ext eq
    · exact absurd same.symm (slot_injective gt i.isLt)
  exact ⟨Equiv.ofBijective f (Finite.injective_iff_bijective.mp injective), fun _ => rfl⟩

theorem placed_at {o : Order} (cyl : ℕ) {i : ℕ} (turn_ : i < o.sectors) :
    ((o.track cyl).sectors[o.slot i]?).map Sector.id = some (o.logicalId i) :=
  (holds (Nat.le_refl o.sectors) turn_).2

theorem length_track {o : Order} (cyl : ℕ) (some_ : 0 < o.sectors) : (o.track cyl).sectors.length = o.sectors :=
  (laid some_ (Nat.le_refl o.sectors)).places

/-- The IDs that are counted from a first one are different. -/
theorem logicalId_injective {o : Order} (few : o.sectors ≤ 256) (untabled : o.table.length < o.sectors) {i j : ℕ}
    (turn_ : i < o.sectors) (turn' : j < o.sectors) (same : o.logicalId i = o.logicalId j) : i = j := by
  rw [logicalId, logicalId, if_neg (by omega), if_neg (by omega)] at same
  have same := congrArg BitVec.toNat same
  rw [BitVec.toNat_ofNat, BitVec.toNat_ofNat] at same
  omega

end Order

/-- For every count of sectors and every interleave, with or without a table of IDs: the search of each
turn ends, and the places of the turns are a permutation of the track's. Where the IDs are counted from
a first one, each has one place, for as many as a byte numbers; the command lays out 64 at most. -/
theorem format_places_once (o : Order) (cyl : ℕ) (some_ : 0 < o.sectors) :
    (∀ i < o.sectors, o.table.length < o.sectors →
      Search (o.turn i).used o.sectors (o.turn i).pos (o.slot i)) ∧
    (o.track cyl).sectors.length = o.sectors ∧
    (∃ σ : Equiv.Perm (Fin o.sectors), ∀ i : Fin o.sectors,
      ((o.track cyl).sectors[(σ i).val]?).map Sector.id = some (o.logicalId i)) ∧
    (o.sectors ≤ 256 → o.table.length < o.sectors → ∀ i < o.sectors,
      ∃! slot : ℕ, ((o.track cyl).sectors[slot]?).map Sector.id = some (BitVec.ofNat 8 (o.firstSector + i))) := by
  obtain ⟨σ, at_⟩ := o.exists_perm
  refine ⟨fun i turn_ untabled => Order.searched turn_ untabled, o.length_track cyl some_, ⟨σ, fun i => ?_⟩,
    fun few untabled i turn_ => ?_⟩
  · rw [at_]
    exact Order.placed_at cyl i.isLt
  · have id (j : ℕ) : o.logicalId j = BitVec.ofNat 8 (o.firstSector + j) := if_neg (by omega)
    refine ⟨o.slot i, ?_, fun slot (found : _ = some _) => ?_⟩
    · rw [← id]
      exact Order.placed_at cyl turn_
    · have bound : slot < o.sectors := by
        rw [← o.length_track cyl some_]
        by_contra outside
        rw [List.getElem?_eq_none (by omega)] at found
        cases found
      -- the place is that of some turn, which laid this ID only if it is this one
      obtain ⟨j, here⟩ := σ.surjective ⟨slot, bound⟩
      have here : o.slot j = slot := by
        rw [← at_, here]
      rw [← here, Order.placed_at cyl j.isLt, ← id] at found
      rw [← here, Order.logicalId_injective few untabled j.isLt turn_ (Option.some.inj found)]

/-- Nine sectors at interleave 3 of a track. -/
theorem format_places_once_nine : ∃ σ : Equiv.Perm (Fin 9), ∀ i : Fin 9,
    (((Order.mk 9 2 1 3 0xE5 [] 0 0).track 0).sectors[(σ i).val]?).map Sector.id =
      some ((Order.mk 9 2 1 3 0xE5 [] 0 0).logicalId i) :=
  (format_places_once ⟨9, 2, 1, 3, 0xE5, [], 0, 0⟩ 0 (by decide)).2.2.1

end Mmemu.Guarantees.SectorInterleave
