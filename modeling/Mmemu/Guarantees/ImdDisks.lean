import Mathlib.Data.List.Forall2
import Mmemu.Source.IecDriveFrame
import Mmemu.Source.ImdDisk

/-!
# ImageDisk files: what is saved is read back

A disk that was read from a file, or formatted, keeps its sectors as long as their
track says, whatever is written to it through the burst commands. Such a disk is
read back from the file that saves it: only whether the bytes of a sector were
spelled out or given as one can change.
-/
namespace Mmemu.Guarantees.ImdRoundTrip
open Mmemu.Library.Framing Mmemu.Source.Imd
open Mmemu.Source.CbmDos (Bytes CbmImageDos CbmSectorDisk)

/-! ## Disks as files have them -/

structure SectorFormed (size : ℕ) (s : Sector) : Prop where
  known : s.type ≤ 8
  absent : s.type = 0 → s.data = []
  full : s.type ≠ 0 → s.data.length = size

structure TrackFormed (t : Track) : Prop where
  few : t.sectors.length < 256
  sizes : t.sizeCode ≤ 6
  side : t.head &&& 1 = t.head
  cyls : t.cylMap = false → ∀ s ∈ t.sectors, s.cyl = t.cyl
  heads : t.headMap = false → ∀ s ∈ t.sectors, s.head = t.head
  sectors : ∀ s ∈ t.sectors, SectorFormed (bytesPerSector t.sizeCode) s

structure DiskFormed (d : ImdDisk) : Prop where
  signed : d.header.take 3 = [0x49, 0x4D, 0x44]
  unended : 0x1A ∉ d.header
  tracks : ∀ t ∈ d.tracks, TrackFormed t

/-! ## One sector -/

theorem bytesPerSector_pos (code : Byte) : 0 < bytesPerSector code := by
  rw [bytesPerSector, Nat.shiftLeft_eq]
  exact Nat.mul_pos (by decide) (Nat.two_pow_pos _)

/-- Whether one byte stands for all of them. -/
def uniform (s : Sector) : Bool := s.data.all (· = s.data.headD 0)

/-- The type of the record that is written. -/
def storedType (s : Sector) : Byte :=
  if s.type = 0 then 0 else ((s.type - 1) &&& ~~~1) + (if uniform s then 2 else 1)

def stored (s : Sector) : Sector := { s with type := storedType s }

/-- What is known of a sector before its record. -/
def header (s : Sector) : Sector := { s with type := 1, data := [] }

theorem replicate_of_uniform {s : Sector} (h : uniform s = true) :
    List.replicate s.data.length (s.data.headD 0) = s.data := by
  rw [uniform, List.all_eq_true] at h
  exact (List.eq_replicate_of_mem fun b mem => by simpa using h b mem).symm

/-- The parities of the types, and that none is beyond the last. -/
theorem base_types : ∀ type : Byte, type ≠ 0 → type ≤ 8 →
    ((type - 1) &&& ~~~1) + 2 ≠ 0 ∧ ¬ 8 < ((type - 1) &&& ~~~1) + 2 ∧
      (((type - 1) &&& ~~~1) + 2).toNat % 2 = 0 ∧
    ((type - 1) &&& ~~~1) + 1 ≠ 0 ∧ ¬ 8 < ((type - 1) &&& ~~~1) + 1 ∧
      (((type - 1) &&& ~~~1) + 1).toNat % 2 ≠ 0 := by
  decide

theorem record_of_data {s : Sector} (present : s.type ≠ 0) (data : s.data ≠ []) :
    record s = if uniform s then [((s.type - 1) &&& ~~~1) + 2, s.data.headD 0]
      else (((s.type - 1) &&& ~~~1) + 1) :: s.data := by
  have none_ : ¬ (s.type = 0 ∨ s.data.isEmpty = true) := by
    rw [List.isEmpty_iff, not_or]
    exact ⟨present, data⟩
  rw [record, if_neg none_]
  rfl

theorem reads_record {size : ℕ} {s : Sector} (h : SectorFormed size s) (some_ : 0 < size) :
    Reads (readRecord size (header s)) (record s) (stored s) := by
  intro rest
  by_cases absent : s.type = 0
  · have written : record s = [0] := if_pos (Or.inl absent)
    have type : storedType s = 0 := if_pos absent
    rw [written, stored, type, List.singleton_append]
    simp [readRecord, header, h.absent absent]
  · have full := h.full absent
    have data : s.data ≠ [] := List.ne_nil_of_length_pos (by omega)
    have type : storedType s = ((s.type - 1) &&& ~~~1) + (if uniform s then 2 else 1) := if_neg absent
    obtain ⟨even, evenSmall, evenParity, odd, oddSmall, oddParity⟩ := base_types s.type absent h.known
    rw [record_of_data absent data, stored, type]
    by_cases same : uniform s = true
    · have fill := replicate_of_uniform same
      rw [full] at fill
      simp only [if_pos same, List.cons_append, List.nil_append, readRecord, if_neg even,
        if_neg evenSmall, if_pos evenParity, fill, header]
    · have taken := reads_take s.data rest
      rw [full] at taken
      simp only [if_neg same, List.cons_append, readRecord, if_neg odd, if_neg oddSmall,
        if_neg oddParity, taken, header]
      rfl

/-! ## One track -/

def storedTrack (t : Track) : Track := { t with sectors := t.sectors.map stored }

theorem flags_read : ∀ head : Byte, head &&& 1 = head → ∀ cylMap headMap : Bool,
    (head ||| (if cylMap then 0x80 else 0) ||| (if headMap then 0x40 else 0)) &&& 1 = head ∧
      ((head ||| (if cylMap then 0x80 else 0) ||| (if headMap then 0x40 else 0)) &&& 0x80 != 0) = cylMap ∧
      ((head ||| (if cylMap then 0x80 else 0) ||| (if headMap then 0x40 else 0)) &&& 0x40 != 0) = headMap := by
  decide

theorem readMap_eq {α : Type*} (given : Bool) (own : Byte) (f : α → Byte) (xs : List α)
    (rest : List Byte) (plain : given = false → ∀ x ∈ xs, f x = own) :
    readMap given xs.length own ((if given then xs.map f else []) ++ rest) = (xs.map f, rest) := by
  cases given with
  | true => simp [readMap]
  | false =>
    have same : xs.map f = List.replicate xs.length own :=
      List.map_eq_replicate_iff.mpr (plain rfl)
    simp [readMap, same]

theorem reads_track {t : Track} (h : TrackFormed t) : Reads readTrack (trackBytes t) (storedTrack t) := by
  intro rest
  have count : (BitVec.ofNat 8 t.sectors.length).toNat = t.sectors.length := by
    rw [BitVec.toNat_ofNat]
    exact Nat.mod_eq_of_lt h.few
  obtain ⟨head, cylMap, headMap⟩ := flags_read t.head h.side t.cylMap t.headMap
  have sizes : ¬ 6 < t.sizeCode := BitVec.not_lt.mpr h.sizes
  have records := readEach_flatMap header t.sectors
    (fun s mem => reads_record (h.sectors s mem) (bytesPerSector_pos t.sizeCode)) rest
  have headers : ((t.sectors.map Sector.id).zip
      ((t.sectors.map Sector.cyl).zip (t.sectors.map Sector.head))).map
        (fun place => ({ id := place.1, cyl := place.2.1, head := place.2.2, type := 1, data := [] } : Sector)) =
      t.sectors.map header := by
    rw [List.zip_map', List.zip_map', List.map_map]
    rfl
  have long : ¬ (t.sectors.map Sector.id ++ ((if t.cylMap then t.sectors.map Sector.cyl else []) ++
      ((if t.headMap then t.sectors.map Sector.head else []) ++
        (t.sectors.flatMap record ++ rest)))).length <
      t.sectors.length * (1 + t.cylMap.toNat + t.headMap.toNat) := by
    cases t.cylMap <;> cases t.headMap <;> simp <;> omega
  simp only [trackBytes, List.append_assoc, List.cons_append, List.nil_append, readTrack, count, head,
    cylMap, headMap, if_neg sizes, if_neg long]
  have ids : (t.sectors.map Sector.id).length = t.sectors.length := List.length_map ..
  rw [List.take_left' ids, List.drop_left' ids, readMap_eq _ _ _ _ _ h.cyls]
  dsimp only
  rw [readMap_eq _ _ _ _ _ h.heads]
  dsimp only
  rw [headers, records]
  rfl

theorem trackBytes_ne_nil (t : Track) : trackBytes t ≠ [] := by
  simp [trackBytes]

/-! ## The whole disk -/

/-- What the file of a disk holds. -/
def storedDisk (d : ImdDisk) (writable : Bool) : ImdDisk :=
  { d with tracks := d.tracks.map storedTrack, writable := writable }

theorem openFile_image {d : ImdDisk} (h : DiskFormed d) (writable : Bool) :
    openFile writable (image d) = some (storedDisk d writable) := by
  have three : 3 ≤ d.header.length := by
    have length := congrArg List.length h.signed
    rw [List.length_take] at length
    exact min_eq_left_iff.mp length
  have unended : ∀ b ∈ d.header, decide (b ≠ 0x1A) = true := by
    intro b mem
    have other : b ≠ 0x1A := by
      rintro rfl
      exact h.unended mem
    simpa using other
  have kept : (image d).takeWhile (· ≠ 0x1A) = d.header := by
    rw [image, List.takeWhile_append_of_pos unended]
    simp
  have rest : (image d).dropWhile (· ≠ 0x1A) = 0x1A :: d.tracks.flatMap trackBytes := by
    rw [image, List.dropWhile_append_of_pos unended]
    simp
  have signed : (image d).take 3 = [0x49, 0x4D, 0x44] := by
    rw [image, List.take_append_of_le_length three, h.signed]
  have long : ¬ (image d).length < 4 := by
    rw [image, List.length_append, List.length_cons]
    omega
  have tracks := readAll_flatMap d.tracks (fun t mem => reads_track (h.tracks t mem))
    (fun t _ => trackBytes_ne_nil t)
    (length_le_length_flatMap d.tracks fun t _ => trackBytes_ne_nil t)
  rw [openFile, if_neg (by simp [long, signed]), rest, kept]
  simp only [tracks]
  rfl

/-! ## Disks that were read -/

theorem formed_of_readRecord {size : ℕ} {seed s : Sector} {bytes rest : List Byte}
    (fresh : seed.data = []) (h : readRecord size seed bytes = some (s, rest)) :
    SectorFormed size s ∧ s.cyl = seed.cyl ∧ s.head = seed.head := by
  cases bytes with
  | nil => cases h
  | cons type bytes =>
    simp only [readRecord] at h
    split at h
    · -- no data
      rename_i absent
      cases h
      exact ⟨⟨by simp [absent], fun _ => fresh, fun present => absurd absent present⟩, rfl, rfl⟩
    · rename_i present
      split at h
      · cases h
      · rename_i known
        split at h
        · cases bytes with
          | nil => cases h
          | cons fill bytes =>
            cases h
            exact ⟨⟨BitVec.not_lt.mp known, fun absent => absurd absent present,
              fun _ => List.length_replicate⟩, rfl, rfl⟩
        · obtain ⟨⟨data, bytes⟩, got, h⟩ := Option.bind_eq_some_iff.mp h
          cases h
          exact ⟨⟨BitVec.not_lt.mp known, fun absent => absurd absent present,
            fun _ => length_of_take got⟩, rfl, rfl⟩

theorem readMap_own {n : ℕ} {own : Byte} {bytes : List Byte} {given : Bool} (plain : given = false) :
    ∀ b ∈ (readMap given n own bytes).1, b = own := by
  subst plain
  exact fun b mem => List.eq_of_mem_replicate mem

/-- Sectors read for headers from three maps. -/
theorem formed_of_headers {size : ℕ} {ids cyls heads bytes rest : List Byte} {sectors : List Sector}
    (h : readEach (readRecord size) ((ids.zip (cyls.zip heads)).map fun (id, cyl, head) =>
      { id := id, cyl := cyl, head := head, type := 1, data := [] }) bytes = some (sectors, rest)) :
    sectors.length ≤ ids.length ∧
      ∀ s ∈ sectors, SectorFormed size s ∧ s.cyl ∈ cyls ∧ s.head ∈ heads := by
  obtain ⟨length, each⟩ := of_readEach (P := fun seed s => seed.data = [] →
    SectorFormed size s ∧ s.cyl = seed.cyl ∧ s.head = seed.head)
    (fun seed items s rest h fresh => formed_of_readRecord fresh h) h
  refine ⟨?_, ?_⟩
  · rw [length, List.length_map, List.length_zip]
    exact Nat.min_le_left ..
  · intro s mem
    obtain ⟨seed, from_, holds⟩ := each s mem
    obtain ⟨⟨id, c, h⟩, entry, rfl⟩ := List.mem_map.mp from_
    obtain ⟨formed, sameCyl, sameHead⟩ := holds rfl
    obtain ⟨_, maps⟩ := List.of_mem_zip entry
    obtain ⟨inCyls, inHeads⟩ := List.of_mem_zip maps
    rw [sameCyl, sameHead]
    exact ⟨formed, inCyls, inHeads⟩

theorem formed_of_readTrack {bytes rest : List Byte} {t : Track}
    (h : readTrack bytes = some (t, rest)) : TrackFormed t := by
  obtain _ | ⟨mode, _ | ⟨cyl, _ | ⟨hd, _ | ⟨n, _ | ⟨sizeCode, bytes⟩⟩⟩⟩⟩ := bytes
  iterate 5 cases h
  simp only [readTrack] at h
  split at h
  · cases h
  rename_i sizes
  split at h
  · cases h
  obtain ⟨⟨sectors, rest⟩, records, h⟩ := Option.bind_eq_some_iff.mp h
  cases h
  obtain ⟨length, each⟩ := formed_of_headers records
  refine ⟨?_, BitVec.not_lt.mp sizes, ?_, ?_, ?_, fun s mem => (each s mem).1⟩
  · rw [List.length_take] at length
    have small := n.isLt
    dsimp only
    omega
  · exact (BitVec.and_assoc ..).trans (congrArg (hd &&& ·) BitVec.and_self)
  · exact fun plain s mem => readMap_own plain s.cyl (each s mem).2.1
  · exact fun plain s mem => readMap_own plain s.head (each s mem).2.2

theorem formed_of_openFile {writable : Bool} {file : List Byte} {d : ImdDisk}
    (h : openFile writable file = some d) : DiskFormed d := by
  unfold openFile at h
  split at h
  · cases h
  rename_i signed
  rw [not_or, not_not] at signed
  split at h
  · cases h
  rename_i ended
  obtain ⟨tracks, read, h⟩ := Option.bind_eq_some_iff.mp h
  cases h
  refine ⟨?_, ?_, forall_of_readAll (fun _ _ _ h => formed_of_readTrack h) read⟩
  · obtain ⟨long, sign⟩ := signed
    obtain _ | ⟨i, _ | ⟨m, _ | ⟨d, rest⟩⟩⟩ := file
    · cases sign
    · cases sign
    · cases sign
    · obtain ⟨rfl, rfl, rfl, -⟩ := by simpa using sign
      simp
  · intro mem
    have other := List.all_eq_true.mp (List.all_takeWhile ..) _ mem
    simp at other

/-! ## Disks that were formatted -/

section Laying

variable {n : ℕ}

/-- The search for a free place as the source makes it, for as long as it takes. -/
inductive Search (used : List Bool) (n : ℕ) : ℕ → ℕ → Prop where
  | stop {pos : ℕ} (free : used[pos]? = some false) : Search used n pos pos
  | next {pos found : ℕ} (taken : used[pos]? = some true) (rest : Search used n ((pos + 1) % n) found) :
    Search used n pos found

theorem Search.free {used : List Bool} {pos found : ℕ} (h : Search used n pos found) :
    used[found]? = some false := by
  induction h with
  | stop free => exact free
  | next taken rest ih => exact ih

/-- From where a free place lies ahead, the search ends. -/
theorem search_firstFree {used : List Bool} (length : used.length = n) (fuel : ℕ) {pos k : ℕ}
    (inside : pos < n) (near : k < fuel) (free : used[(pos + k) % n]? = some false) :
    Search used n pos (firstFree used n fuel pos) := by
  induction fuel generalizing pos k with
  | zero => omega
  | succ fuel ih =>
    have here : used[pos]? = some (used.getD pos false) := by
      simp [length, inside]
    rw [firstFree]
    split
    · rename_i taken
      cases k with
      | zero =>
        rw [Nat.add_zero, Nat.mod_eq_of_lt inside, here, taken] at free
        cases free
      | succ k =>
        refine .next (by rw [here, taken]) (ih (Nat.mod_lt _ (by omega)) (Nat.lt_of_succ_lt_succ near) ?_)
        rw [Nat.mod_add_mod, Nat.add_assoc, Nat.add_comm 1 k]
        exact free
    · rename_i open_
      exact .stop (by rw [here, Bool.eq_false_of_not_eq_true open_])

/-- After some turns as many places are used, and each holds its sector. -/
structure Laid (n turns : ℕ) (want : Sector → Prop) (l : Layout) : Prop where
  places : l.placed.length = n
  marks : l.used.length = n
  inside : l.pos < n
  count : l.used.count true = turns
  filled : ∀ (p : ℕ) (s : Sector), l.used[p]? = some true → l.placed[p]? = some s → want s

theorem Laid.search {turns : ℕ} {want : Sector → Prop} {l : Layout} (h : Laid n turns want l)
    (more : turns < n) : Search l.used n l.pos (firstFree l.used n n l.pos) := by
  have lt : l.used.count true < l.used.length := by
    rw [h.count, h.marks]
    exact more
  obtain ⟨mark, mem, open_⟩ := List.count_lt_length_iff.mp lt
  obtain ⟨q, bound, at_⟩ := List.mem_iff_getElem.mp mem
  rw [h.marks] at bound
  have inside := h.inside
  have reached : (l.pos + (q + n - l.pos) % n) % n = q := by
    rw [Nat.add_mod_mod, Nat.add_sub_of_le (by omega), Nat.add_mod_right, Nat.mod_eq_of_lt bound]
  refine search_firstFree h.marks n inside (Nat.mod_lt (q + n - l.pos) (by omega)) ?_
  rw [reached, List.getElem?_eq_getElem (by omega), at_, Bool.eq_false_of_not_eq_true open_]

/-- A sector put in a free place. -/
theorem Laid.put {turns pos next : ℕ} {want : Sector → Prop} {l : Layout} {s : Sector}
    (h : Laid n turns want l) (free : l.used[pos]? = some false) (inside : next < n) (fits : want s) :
    Laid n (turns + 1) want
      { placed := l.placed.set pos s, used := l.used.set pos true, pos := next } := by
  obtain ⟨bound, open_⟩ := List.getElem?_eq_some_iff.mp free
  refine ⟨?_, ?_, inside, ?_, ?_⟩
  · rw [List.length_set, h.places]
  · rw [List.length_set, h.marks]
  · dsimp only
    rw [List.count_set bound, h.count, open_]
    rfl
  · intro p s' used placed
    by_cases same : pos = p
    · subst same
      rw [List.getElem?_set_self (by rw [h.places, ← h.marks]; exact bound)] at placed
      cases placed
      exact fits
    · rw [List.getElem?_set_ne same] at used placed
      exact h.filled p s' used placed

theorem Laid.all {want : Sector → Prop} {l : Layout} (h : Laid n n want l) :
    ∀ s ∈ l.placed, want s := by
  intro s mem
  obtain ⟨p, bound, at_⟩ := List.mem_iff_getElem.mp mem
  have full : ∀ b ∈ l.used, true = b := List.count_eq_length.mp (h.count.trans h.marks.symm)
  have marked : p < l.used.length := by rwa [h.marks, ← h.places]
  refine h.filled p s ?_ (by rw [List.getElem?_eq_getElem bound, at_])
  rw [List.getElem?_eq_getElem marked, ← full _ (List.getElem_mem marked)]

theorem laid_blank (some_ : 0 < n) (want : Sector → Prop) : Laid n 0 want (blank n) := by
  refine ⟨List.length_replicate, List.length_replicate, some_, ?_, ?_⟩
  · exact List.count_eq_zero.mpr fun mem => absurd (List.eq_of_mem_replicate mem) (by decide)
  intro p s used _
  have mem := List.mem_of_getElem? used
  exact absurd (List.eq_of_mem_replicate mem) (by decide)

end Laying

section Formatting

variable {sectors sizeCode firstSector interleave : ℕ} {fill : Byte} {table : List Byte}

/-- What a formatted sector is like. -/
def Fresh (size : ℕ) (logical head : Byte) (s : Sector) : Prop :=
  s.cyl = logical ∧ s.head = head ∧ s.type = 1 ∧ s.data.length = size

/-- Every place of the track is laid out, in whatever order the sectors come. -/
theorem laid_range (logical head : Byte) (some_ : 0 < sectors) {turns : ℕ} (most : turns ≤ sectors) :
    Laid sectors turns (Fresh (128 <<< sizeCode) logical head)
      ((List.range turns).foldl
        (place sectors sizeCode firstSector interleave fill table logical head) (blank sectors)) ∧
    (sectors ≤ table.length → ∀ p, turns ≤ p → p < sectors →
      ((List.range turns).foldl
        (place sectors sizeCode firstSector interleave fill table logical head)
        (blank sectors)).used[p]? = some false) := by
  induction turns with
  | zero =>
    refine ⟨laid_blank some_ _, fun _ p _ bound => ?_⟩
    simp [blank, bound]
  | succ turns ih =>
    obtain ⟨laid, ahead⟩ := ih (by omega)
    rw [List.range_succ, List.foldl_append, List.foldl_cons, List.foldl_nil]
    refine ⟨laid.put ?_ (Nat.mod_lt _ some_) ⟨rfl, rfl, rfl, List.length_replicate⟩,
      fun tabled p above bound => ?_⟩
    · split
      · rename_i tabled
        exact ahead tabled turns (Nat.le_refl turns) (by omega)
      · exact (laid.search (by omega)).free
    · simp only [place, if_pos tabled]
      rw [List.getElem?_set_ne (by omega)]
      exact ahead tabled p (by omega) bound

theorem formed_formatTrack {cyl logical : ℕ} {h : ℕ} (some_ : 0 < sectors) (few : sectors ≤ 64)
    (sizes : sizeCode ≤ 3) (head : h ≤ 1) :
    TrackFormed (formatTrack sectors sizeCode firstSector interleave fill table cyl logical
      (BitVec.ofNat 8 h)) := by
  have laid : Laid sectors sectors (Fresh (128 <<< sizeCode) (BitVec.ofNat 8 logical)
      (BitVec.ofNat 8 h)) ((List.range sectors).foldl (place sectors sizeCode firstSector interleave
        fill table (BitVec.ofNat 8 logical) (BitVec.ofNat 8 h)) (blank sectors)) :=
    (laid_range (BitVec.ofNat 8 logical) (BitVec.ofNat 8 h) some_ (Nat.le_refl sectors)).1
  have each := laid.all
  have code : (BitVec.ofNat 8 sizeCode).toNat = sizeCode := by
    rw [BitVec.toNat_ofNat]
    omega
  refine ⟨?_, ?_, ?_, ?_, fun _ s mem => (each s mem).2.1, fun s mem => ?_⟩
  · rw [formatTrack, laid.places]
    omega
  · rw [BitVec.le_def, formatTrack, code]
    exact sizes.trans (by decide)
  · obtain rfl | rfl : h = 0 ∨ h = 1 := by omega
    · exact BitVec.zero_and
    · exact BitVec.and_self
  · intro plain s mem
    have same : BitVec.ofNat 8 logical = BitVec.ofNat 8 cyl := by simpa [formatTrack] using plain
    exact (each s mem).1.trans same
  · obtain ⟨_, _, type, length⟩ := each s mem
    refine ⟨by rw [type]; decide, fun absent => ?_, fun _ => ?_⟩
    · rw [type] at absent
      cases absent
    · rw [length, bytesPerSector, formatTrack, code]

theorem formed_format {d : ImdDisk} (h : DiskFormed d) (taken : Bool)
    (lastTrack sectors sizeCode firstSector interleave logicalTrack trackOffset : ℕ) (fill : Byte)
    (doubleSided : Bool) (side : ℕ) (table : List Byte) :
    DiskFormed (format d taken lastTrack sectors sizeCode firstSector interleave logicalTrack
      trackOffset fill doubleSided side table).2 := by
  unfold format
  split
  · exact h
  · rename_i valid
    simp only [not_or, Nat.not_lt] at valid
    refine ⟨h.signed, h.unended, fun t mem => ?_⟩
    obtain ⟨cyl, _, mem⟩ := List.mem_flatMap.mp mem
    obtain ⟨h, side, rfl⟩ := List.mem_map.mp mem
    have head : h ≤ 1 := by
      have either := (List.mem_filter.mp side).1
      simp at either
      omega
    exact formed_formatTrack (Nat.pos_of_ne_zero valid.2.1) valid.2.2.1 valid.2.2.2 head

end Formatting

/-! ## Sectors written to -/

section Modifying

variable {α : Type*} {p : α → Bool} {f : α → α}

theorem mem_modifyFirst {xs : List α} {b : α} (mem : b ∈ modifyFirst p f xs) :
    b ∈ xs ∨ ∃ a ∈ xs, xs.find? p = some a ∧ b = f a := by
  induction xs with
  | nil => exact .inl mem
  | cons x xs ih =>
    rw [modifyFirst] at mem
    by_cases here : p x = true
    · rw [if_pos here, List.mem_cons] at mem
      rcases mem with rfl | mem
      · exact .inr ⟨x, List.mem_cons_self .., List.find?_cons_of_pos here, rfl⟩
      · exact .inl (List.mem_cons_of_mem x mem)
    · rw [if_neg here, List.mem_cons] at mem
      rcases mem with rfl | mem
      · exact .inl (List.mem_cons_self ..)
      · rcases ih mem with mem | ⟨a, inside, found, rfl⟩
        · exact .inl (List.mem_cons_of_mem x mem)
        · refine .inr ⟨a, List.mem_cons_of_mem x inside, ?_, rfl⟩
          rw [List.find?_cons_of_neg here, found]

theorem length_modifyFirst (xs : List α) : (modifyFirst p f xs).length = xs.length := by
  induction xs with
  | nil => rfl
  | cons x xs ih =>
    rw [modifyFirst]
    split
    · rfl
    · rw [List.length_cons, List.length_cons, ih]

/-- What is found is as before, up to what the change touches. -/
theorem map_find?_modifyFirst {γ : Type*} {q : α → Bool} {g : α → γ} (same : ∀ a, q (f a) = q a)
    (alike : ∀ a, g (f a) = g a) (xs : List α) :
    ((modifyFirst p f xs).find? q).map g = (xs.find? q).map g := by
  induction xs with
  | nil => rfl
  | cons x xs ih =>
    rw [modifyFirst]
    split
    · rw [List.find?_cons, List.find?_cons, same]
      cases q x
      · rfl
      · exact congrArg some (alike x)
    · rw [List.find?_cons, List.find?_cons]
      cases q x
      · exact ih
      · rfl

end Modifying

theorem SectorFormed.store {size : ℕ} {s : Sector} {data : List Byte} (h : SectorFormed size s)
    (length : data.length = size) : SectorFormed size (Sector.store data s) := by
  by_cases absent : s.type = 0
  · have type : (Sector.store data s).type = 1 := if_pos absent
    refine ⟨by rw [type]; decide, fun none_ => ?_, fun _ => length⟩
    rw [type] at none_
    cases none_
  · have type : (Sector.store data s).type = s.type := if_neg absent
    exact ⟨by rw [type]; exact h.known, fun none_ => absurd (type.symm.trans none_) absent,
      fun _ => length⟩

theorem TrackFormed.store {t : Track} {p : Sector → Bool} {data : List Byte} (h : TrackFormed t)
    (length : data.length = bytesPerSector t.sizeCode) :
    TrackFormed { t with sectors := modifyFirst p (Sector.store data) t.sectors } := by
  have each {P : Sector → Prop} (old : ∀ s ∈ t.sectors, P s)
      (new : ∀ s ∈ t.sectors, P (Sector.store data s)) :
      ∀ s ∈ modifyFirst p (Sector.store data) t.sectors, P s := by
    intro s mem
    rcases mem_modifyFirst mem with mem | ⟨a, inside, _, rfl⟩
    · exact old s mem
    · exact new a inside
  refine ⟨?_, h.sizes, h.side, fun plain => ?_, fun plain => ?_, ?_⟩
  · rw [length_modifyFirst]
    exact h.few
  · exact each (h.cyls plain) (h.cyls plain)
  · exact each (h.heads plain) (h.heads plain)
  · exact each h.sectors fun s mem => (h.sectors s mem).store length

theorem DiskFormed.store {d : ImdDisk} {cyl side id : ℕ} {data : List Byte} (h : DiskFormed d)
    (length : ∀ t, track d cyl side = some t → data.length = bytesPerSector t.sizeCode) :
    DiskFormed (modifySector d cyl side id (Sector.store data)) := by
  refine ⟨h.signed, h.unended, fun t mem => ?_⟩
  rcases mem_modifyFirst mem with mem | ⟨a, inside, found, rfl⟩
  · exact h.tracks t mem
  · exact (h.tracks a inside).store (length a found)

/-- The tracks keep their sizes. -/
theorem sizeCode_modifySector (d : ImdDisk) (cyl side id : ℕ) (f : Sector → Sector) (c s : ℕ) :
    (track (modifySector d cyl side id f) c s).map Track.sizeCode =
      (track d c s).map Track.sizeCode := by
  refine map_find?_modifyFirst ?_ ?_ d.tracks
  · exact fun t => rfl
  · exact fun t => rfl

theorem sectorSize_of_track {d : ImdDisk} {cyl side : ℕ} {t : Track}
    (h : track d cyl side = some t) : sectorSize d cyl side = bytesPerSector t.sizeCode := by
  rw [sectorSize, h]
  rfl

/-! ## The burst commands -/

section Session

variable {δ : Type}

/-- The disk is well formed, and a sector being received is short of the bytes its
track has for one. -/
structure Ready (d : MfmDos δ) : Prop where
  formed : DiskFormed d.mfm
  room : 0 < d.dos.bwLeft → d.dos.bwBuf.length < d.bwSize
  sized : 0 < d.dos.bwLeft → ∀ t, track d.mfm d.dos.bwTrack d.bwSide = some t →
    d.bwSize = bytesPerSector t.sizeCode

theorem Ready.idle {d : MfmDos δ} (formed : DiskFormed d.mfm) (left : d.dos.bwLeft = 0) : Ready d :=
  ⟨formed, fun more => absurd left more.ne', fun more => absurd left more.ne'⟩

theorem burstRead_quiet (t side : ℕ) (noTransfer ignoreError : Bool) (n s : ℕ) (d : MfmDos δ) :
    (MfmDos.burstRead t side noTransfer ignoreError n s d).mfm = d.mfm ∧
      (MfmDos.burstRead t side noTransfer ignoreError n s d).dos.bwLeft = d.dos.bwLeft := by
  induction n generalizing s d with
  | zero => exact ⟨rfl, rfl⟩
  | succ n ih =>
    rw [MfmDos.burstRead]
    split
    · exact ⟨rfl, rfl⟩
    · dsimp only
      split
      · exact ⟨rfl, rfl⟩
      · obtain ⟨mfm, left⟩ := ih (s + 1) _
        rw [mfm, left]
        cases noTransfer <;> exact ⟨rfl, rfl⟩

theorem queryFormat_quiet (d : MfmDos δ) (cyl side : ℕ) :
    (d.queryFormat cyl side).mfm = d.mfm ∧ (d.queryFormat cyl side).dos.bwLeft = d.dos.bwLeft := by
  unfold MfmDos.queryFormat
  dsimp only
  repeat' split
  all_goals exact ⟨rfl, rfl⟩

theorem formatDisk_ready {d : MfmDos δ} (h : DiskFormed d.mfm) (left : d.dos.bwLeft = 0)
    (taken : Bool) (c : Byte) (side : ℕ) (b : Bytes) : Ready (d.formatDisk taken c side b) := by
  unfold MfmDos.formatDisk
  dsimp only
  split
  · exact Ready.idle h left
  · split
    · exact Ready.idle h left
    · exact Ready.idle (formed_format h ..) left

theorem mfmBurst_ready {d d' : MfmDos δ} (h : DiskFormed d.mfm) (left : d.dos.bwLeft = 0)
    {taken : Bool} {b : Bytes} (done : d.mfmBurst taken b = some d') : Ready d' := by
  unfold MfmDos.mfmBurst at done
  dsimp only at done
  split at done <;> cases done
  · obtain ⟨mfm, same⟩ := burstRead_quiet _ _ _ _ _ _ d
    exact Ready.idle (mfm ▸ h) (same.trans left)
  · -- WRITE takes the size from the track
    refine ⟨h, fun _ => ?_, fun _ t found => ?_⟩
    · dsimp only
      split
      · decide
      · rename_i some_
        exact Nat.pos_of_ne_zero some_
    · have size := sectorSize_of_track found
      refine (if_neg ?_).trans size
      rw [size]
      exact (bytesPerSector_pos t.sizeCode).ne'
  · exact Ready.idle h left
  · exact formatDisk_ready h left taken _ _ b
  · obtain ⟨mfm, same⟩ := queryFormat_quiet d _ _
    exact Ready.idle (mfm ▸ h) (same.trans left)

/-- A whole sector is stored, and the next one starts afresh. -/
theorem Ready.finish {d : MfmDos δ} (formed : DiskFormed d.mfm)
    (whole : d.dos.bwBuf.length = d.bwSize) (some_ : 0 < d.bwSize)
    (sized : ∀ t, track d.mfm d.dos.bwTrack d.bwSide = some t → d.bwSize = bytesPerSector t.sizeCode)
    (taken : Bool) : Ready (d.burstFinishSector taken) := by
  unfold MfmDos.burstFinishSector
  dsimp only
  split
  · rename_i none_
    exact ⟨formed, fun more => absurd more (by omega), fun more => absurd more (by omega)⟩
  · split
    · exact ⟨formed, fun _ => some_, fun _ => sized⟩
    · split
      · exact ⟨formed, fun _ => some_, fun _ => sized⟩
      · refine ⟨formed.store fun t found => whole.trans (sized t found), fun _ => some_, ?_⟩
        intro _ t found
        have codes := sizeCode_modifySector d.mfm d.dos.bwTrack d.bwSide d.dos.bwSector
          (Sector.store d.dos.bwBuf) d.dos.bwTrack d.bwSide
        have after : track (modifySector d.mfm d.dos.bwTrack d.bwSide d.dos.bwSector
            (Sector.store d.dos.bwBuf)) d.dos.bwTrack d.bwSide = some t := found
        rw [after, Option.map_some] at codes
        obtain ⟨t₀, before, same⟩ := Option.map_eq_some_iff.mp codes.symm
        rw [← same]
        exact sized t₀ before

theorem Ready.sendSector {d : MfmDos δ} (h : Ready d) (taken : Bool) (bytes : Bytes) :
    Ready (MfmDos.sendSector taken bytes d) := by
  induction bytes generalizing d with
  | nil => exact h
  | cons b rest ih =>
    rw [MfmDos.sendSector, MfmDos.burstWriteByte]
    by_cases none_ : d.dos.bwLeft ≤ 0
    · rw [if_pos none_]
      exact ih h
    · have more : 0 < d.dos.bwLeft := by omega
      have room := h.room more
      rw [if_neg none_]
      dsimp only
      by_cases whole : d.bwSize ≤ (d.dos.bwBuf ++ [b]).length
      · rw [if_pos (decide_eq_true whole)]
        rw [List.length_append, List.length_singleton] at whole
        refine Ready.finish (d := { d with dos := { d.dos with bwBuf := d.dos.bwBuf ++ [b] } })
          h.formed ?_ (Nat.zero_lt_of_lt room) (h.sized more) taken
        dsimp only
        rw [List.length_append, List.length_singleton]
        omega
      · rw [if_neg (by simpa using whole)]
        exact ih ⟨h.formed, fun _ => Nat.lt_of_not_le whole, h.sized⟩

theorem mfmBurst_none {d : MfmDos δ} {taken : Bool} {b : Bytes} (h : d.mfmBurst taken b = none) :
    (b.getD 0 0 >>> 1 &&& 7).toNat ∉ [0, 1, 2, 3, 5] := by
  intro mem
  simp only [List.mem_cons, List.not_mem_nil, or_false] at mem
  unfold MfmDos.mfmBurst at h
  dsimp only at h
  rcases mem with here | here | here | here | here <;> rw [here] at h <;> cases h

theorem Ready.openImage {d d' : MfmDos δ} {writable : Bool} {file : List Byte}
    (h : d.openImage writable file = some d') : Ready d' := by
  obtain ⟨mfm, opened, h⟩ := Option.bind_eq_some_iff.mp h
  cases h
  exact Ready.idle (formed_of_openFile opened) rfl

section Common

variable [CbmSectorDisk δ]

/-- The commands that are as on other disks leave no sector to be received. -/
theorem bwLeft_burst (d : CbmImageDos δ) (b : Bytes)
    (other : (b.getD 0 0 >>> 1 &&& 7).toNat ∉ [0, 1, 2, 3, 5]) : (d.burst b).bwLeft = 0 := by
  cases b with
  | nil => rfl
  | cons c args =>
    have command : (c >>> 1 &&& 7).toNat ∉ [0, 1, 2, 3, 5] := other
    simp only [List.mem_cons, List.not_mem_nil, or_false, not_or] at command
    obtain ⟨n0, n1, n2, n3, n5⟩ := command
    simp only [CbmImageDos.burst]
    split
    · rfl
    · split
      · rename_i here
        exact absurd here n0
      · rename_i here
        exact absurd here n1
      · rename_i here
        exact absurd here n2
      · rename_i here
        exact absurd here n5
      · rename_i here
        exact absurd here n3
      · split <;> rfl
      · split
        · split <;> rfl
        · split <;> rfl
      · unfold CbmImageDos.burstUtility
        repeat' split
        all_goals rfl

theorem Ready.burst {d : MfmDos δ} (h : DiskFormed d.mfm) (taken : Bool) (b : Bytes) :
    Ready (d.burst taken b) := by
  unfold MfmDos.burst
  dsimp only
  split
  · rename_i empty
    rw [List.isEmpty_iff] at empty
    subst empty
    exact Ready.idle h rfl
  · split
    · exact Ready.idle h rfl
    · split
      · rename_i done
        refine ⟨?_, ?_, ?_⟩
        all_goals
          have ready := mfmBurst_ready (d := { d with
            dos := { d.dos with burstOut := [], bwLeft := 0 }, bwSize := 256 }) h rfl done
        · exact ready.formed
        · exact ready.room
        · exact ready.sized
      · rename_i other
        exact Ready.idle h (bwLeft_burst _ b (mfmBurst_none other))

theorem Ready.step {d : MfmDos δ} (h : Ready d) (event : MfmDos.Event) : Ready (d.step event) := by
  cases event with
  | command b taken => exact Ready.burst h.formed taken b
  | sector bytes taken => exact h.sendSector taken bytes
  | cancel => exact Ready.idle h.formed rfl
  | reset => exact Ready.idle h.formed rfl

theorem Ready.run {d : MfmDos δ} (h : Ready d) (events : List MfmDos.Event) :
    Ready (d.run events) := by
  induction events generalizing d with
  | nil => exact h
  | cons event rest ih => exact ih (h.step event)

end Common

end Session

/-! ## What is kept -/

/-- The same sector header and bytes, and the same marks. -/
structure SameSector (s s' : Sector) : Prop where
  id : s'.id = s.id
  cyl : s'.cyl = s.cyl
  head : s'.head = s.head
  data : s'.data = s.data
  absent : s'.type = 0 ↔ s.type = 0
  marks : s.type ≠ 0 → (s'.type - 1) >>> 1 = (s.type - 1) >>> 1

structure SameTrack (t t' : Track) : Prop where
  mode : t'.mode = t.mode
  cyl : t'.cyl = t.cyl
  head : t'.head = t.head
  sizeCode : t'.sizeCode = t.sizeCode
  cylMap : t'.cylMap = t.cylMap
  headMap : t'.headMap = t.headMap
  sectors : List.Forall₂ SameSector t.sectors t'.sectors

structure SameDisk (d d' : ImdDisk) : Prop where
  header : d'.header = d.header
  tracks : List.Forall₂ SameTrack d.tracks d'.tracks

theorem marks_of_base : ∀ type : Byte, type ≠ 0 → type ≤ 8 →
    (((type - 1) &&& ~~~1) + 2 - 1) >>> 1 = (type - 1) >>> 1 ∧
      (((type - 1) &&& ~~~1) + 1 - 1) >>> 1 = (type - 1) >>> 1 := by
  decide

theorem same_stored {size : ℕ} {s : Sector} (h : SectorFormed size s) : SameSector s (stored s) := by
  refine ⟨rfl, rfl, rfl, rfl, ⟨fun none_ => ?_, fun none_ => if_pos none_⟩, fun present => ?_⟩
  · by_contra present
    obtain ⟨even, _, _, odd, _, _⟩ := base_types s.type present h.known
    have type : storedType s = 0 := none_
    rw [storedType, if_neg present] at type
    split at type
    · exact even type
    · exact odd type
  · obtain ⟨even, odd⟩ := marks_of_base s.type present h.known
    have type : (stored s).type = ((s.type - 1) &&& ~~~1) + (if uniform s then 2 else 1) :=
      if_neg present
    rw [type]
    split
    · exact even
    · exact odd

theorem same_storedDisk {d : ImdDisk} (h : DiskFormed d) (writable : Bool) :
    SameDisk d (storedDisk d writable) := by
  refine ⟨rfl, ?_⟩
  rw [storedDisk, List.forall₂_map_right_iff, List.forall₂_same]
  intro t mem
  refine ⟨rfl, rfl, rfl, rfl, rfl, rfl, ?_⟩
  rw [storedTrack, List.forall₂_map_right_iff, List.forall₂_same]
  exact fun s inside => same_stored ((h.tracks t mem).sectors s inside)

/-- Whatever image is put in and whatever is done to it, the file that saves the
disk opens, as the same disk. -/
theorem saved_disk_reopens {δ : Type} [CbmSectorDisk δ] (d opened : MfmDos δ) (writable : Bool)
    (file : List Byte) (events : List MfmDos.Event) (h : d.openImage writable file = some opened)
    (again : Bool) :
    ∃ disk, openFile again (image (opened.run events).mfm) = some disk ∧
      SameDisk (opened.run events).mfm disk := by
  have formed := ((Ready.openImage h).run events).formed
  exact ⟨_, openFile_image formed again, same_storedDisk formed again⟩

/-- No sector disk is behind an MFM image. -/
instance : CbmSectorDisk Unit where
  getDirectory _ := []
  readFile _ _ := none
  getDiskName _ := []
  getDiskId _ := []
  getDosType _ := []
  getFreeBlocks _ := 0
  size _ := 0
  byteAt _ _ := 0
  sectorOffset _ _ _ := none
  writable _ := false
  writeSector d _ _ _ := (false, d)
  formatSectors d := (false, d)
  writeFile d _ _ _ _ := (26, d)
  scratch d _ := (26, d)
  rename d _ _ := (26, d)

def emptyDrive : MfmDos Unit where
  dos := { disk := (), unit := 8, listening := false, talking := false, opening := false
           active := false, channel := 0, name := [], cmd := [], ch := fun _ => .closed, error := []
           errorPos := 0, burstOut := [], fastload := [], fastloadPending := false, bwLeft := 0
           bwTrack := 0, bwSector := 0, bwBuf := [], burstLast := 0x10, loggedIn := false
           burstInterleave := 5 }
  mfm := { header := [], tracks := [], writable := false }
  bwSide := 0
  bwSize := 256

/-- A track of one sector, given as one byte and written to after a log-in. -/
theorem saved_disk_reopens_written :
    ∃ disk, openFile true (image (MfmDos.run
        { emptyDrive with
          mfm := ⟨[0x49, 0x4D, 0x44], [⟨5, 0, 0, 0, false, false,
            [⟨1, 0, 0, 2, List.replicate 128 0xE5⟩]⟩], true⟩
          dos := emptyDrive.dos.reset }
        [.command [0x04] true, .command [0x02, 0, 1, 1] true,
          .sector (List.range 128 |>.map fun i => BitVec.ofNat 8 i) true]).mfm) = some disk ∧
      SameDisk (MfmDos.run
        { emptyDrive with
          mfm := ⟨[0x49, 0x4D, 0x44], [⟨5, 0, 0, 0, false, false,
            [⟨1, 0, 0, 2, List.replicate 128 0xE5⟩]⟩], true⟩
          dos := emptyDrive.dos.reset }
        [.command [0x04] true, .command [0x02, 0, 1, 1] true,
          .sector (List.range 128 |>.map fun i => BitVec.ofNat 8 i) true]).mfm disk :=
  saved_disk_reopens emptyDrive _ true [0x49, 0x4D, 0x44, 0x1A, 5, 0, 0, 1, 0, 1, 2, 0xE5]
    [.command [0x04] true, .command [0x02, 0, 1, 1] true,
      .sector (List.range 128 |>.map fun i => BitVec.ofNat 8 i) true] rfl true

end Mmemu.Guarantees.ImdRoundTrip

/-!
# Burst fastload and the KERNAL's LOAD

The blocks that a burst fastload queues, read by the rules of the computer: a status, 254 bytes
behind a zero, a count and so many bytes behind $1F. The drive reads at most 2^24 bytes of a file.
-/
namespace Mmemu.Guarantees.BurstFastload
open Mmemu.Source.CbmDos Mmemu.Source.IecBus

/-- What LOAD takes from the queue, if nothing is missing or left over. The count of a first block
leaves out the load address. -/
def kernalReads (first : Bool) : Bytes → Option Bytes
  | [] => none
  | status :: rest =>
    if status = 0x00 then
      if 254 ≤ rest.length then (kernalReads false (rest.drop 254)).map (rest.take 254 ++ ·) else none
    else if status = 0x1F then
      rest.head?.bind fun count =>
        if rest.tail.length = count.toNat + (if first then 2 else 0) then some rest.tail else none
    else none
termination_by queue => queue.length
decreasing_by simp only [List.length_drop, List.length_cons]; omega

section Blocks
variable {data : Bytes}

theorem kernalReads_block (first : Bool) {block : Bytes} (full : block.length = 254) (queue : Bytes) :
    kernalReads first (0x00 :: (block ++ queue)) = (kernalReads false queue).map (block ++ ·) := by
  rw [kernalReads, if_pos rfl, if_pos (by rw [List.length_append]; omega), List.take_left' full,
    List.drop_left' full]

theorem kernalReads_last (first : Bool) {count : Byte} {block : Bytes}
    (whole : block.length = count.toNat + if first then 2 else 0) :
    kernalReads first (0x1F :: count :: block) = some block := by
  rw [kernalReads, if_neg (by decide), if_pos rfl]
  exact if_pos whole

/-- The blocks from an offset on are read as the file from there. -/
theorem kernalReads_fastloadBlocks (two : 2 ≤ data.length) (fuel start : ℕ)
    (inside : start < data.length) (enough : data.length ≤ start + fuel) :
    kernalReads (start == 0) (IecDrive.fastloadBlocks data fuel start) = some (data.drop start) := by
  induction fuel generalizing start with
  | zero => omega
  | succ fuel ih =>
    unfold IecDrive.fastloadBlocks
    rw [if_pos inside]
    dsimp only
    by_cases last : data.length ≤ start + min 254 (data.length - start)
    · have short : data.length - start ≤ 254 := by omega
      have none_ : IecDrive.fastloadBlocks data fuel (start + 254) = [] := by
        cases fuel with
        | zero => rfl
        | succ fuel =>
          unfold IecDrive.fastloadBlocks
          rw [if_neg (by omega)]
      have whole : (data.drop start).take (min 254 (data.length - start)) = data.drop start :=
        List.take_of_length_le (by rw [List.length_drop]; omega)
      rw [if_pos last, none_, whole, List.append_nil]
      change kernalReads _ (0x1F :: _ :: data.drop start) = _
      refine kernalReads_last _ ?_
      rw [List.length_drop, BitVec.toNat_ofNat]
      by_cases first : start = 0
      · rw [if_pos first, Nat.mod_eq_of_lt (by omega), first]
        simp only [beq_self_eq_true, if_true]
        omega
      · rw [if_neg first, Nat.mod_eq_of_lt (by omega), beq_eq_false_iff_ne.mpr first]
        simp only [Bool.false_eq_true, if_false]
        omega
    · have full : min 254 (data.length - start) = 254 := by omega
      rw [if_neg last, full]
      have block : ((data.drop start).take 254).length = 254 := by
        rw [List.length_take, List.length_drop]
        omega
      have later : (start + 254 == 0) = false := beq_eq_false_iff_ne.mpr (by omega)
      rw [List.append_assoc, List.singleton_append, kernalReads_block _ block, ← later,
        ih (start + 254) (by omega) (by omega), Option.map_some, ← List.drop_drop,
        List.take_append_drop]

end Blocks

/-! ## Reading the file -/

section Reading
variable {δ : Type} [CbmSectorDisk δ] {d : CbmImageDos δ}

omit [CbmSectorDisk δ] in
/-- A file is read to its end or for so many rounds. -/
theorem fastloadBytes_eq {data : Bytes} (guard pos : ℕ) (talking : d.talking = true)
    (zero : d.channel = 0) (file : d.files 0 = some (data, pos)) :
    (IecDrive.fastloadBytes guard d).1 = (data.drop pos).take guard := by
  induction guard generalizing d pos with
  | zero => rfl
  | succ guard ih =>
    have ordinary : d.channel ≠ 15 := by
      rw [zero]
      decide
    obtain ⟨status, byte, files⟩ := CbmImageDos.acptr_eq_some talking ordinary (zero ▸ file)
    obtain ⟨talking', channel, -, -⟩ := d.acptr_keeps
    unfold IecDrive.fastloadBytes
    dsimp only
    by_cases ended : data.length ≤ pos
    · rw [if_pos ended] at status
      rw [status, if_pos (.inr (by decide)), List.drop_eq_nil_of_le ended]
      rfl
    · have inside := Nat.lt_of_not_le ended
      have here : data.drop pos = d.acptr.2.1 :: data.drop (pos + 1) := by
        rw [byte inside, List.drop_eq_getElem_cons inside, List.getD_eq_getElem?_getD,
          List.getElem?_eq_getElem inside, Option.getD_some]
      rw [if_neg ended] at status
      rw [here, List.take_succ_cons]
      by_cases last : pos + 1 = data.length
      · rw [if_pos last] at status
        rw [status, if_neg (by decide), if_pos (by decide), List.drop_eq_nil_of_le last.ge,
          List.take_nil]
      · rw [if_neg last] at status
        rw [status, if_neg (by decide), if_neg (by decide)]
        rw [zero, if_pos inside] at files
        have next : d.acptr.2.2.files 0 = some (data, pos + 1) := by
          rw [files, Function.update_self]
        exact congrArg (d.acptr.2.1 :: ·)
          (ih (pos + 1) (talking'.trans talking) (channel.trans zero) next)

omit [CbmSectorDisk δ] in
/-- Of a name the first 80 bytes are kept. -/
theorem ciout_take [CbmSectorDisk δ] (listening : d.listening = true) (opening : d.opening = true)
    (bytes : Bytes) (short : d.name.length ≤ 80) :
    bytes.foldl (fun d a => (d.ciout a).2) d = { d with name := (d.name ++ bytes).take 80 } := by
  induction bytes generalizing d with
  | nil => rw [List.foldl_nil, List.append_nil, List.take_of_length_le short]
  | cons a rest ih =>
    have one : (d.ciout a).2 =
        if d.name.length < 80 then { d with name := d.name ++ [a] } else d := by
      unfold CbmImageDos.ciout
      rw [if_neg (by simp [listening]), if_pos opening]
    rw [List.foldl_cons, one]
    split
    next room =>
      refine (ih (d := { d with name := d.name ++ [a] }) listening opening ?_).trans ?_
      · rw [List.length_append]
        exact room
      · rw [List.append_assoc, List.singleton_append]
    next full =>
      have all : d.name.length = 80 := by omega
      rw [ih listening opening short, List.take_left' all, List.take_left' all]

/-- What the drive opens on channel 0 under a name. -/
def opened (d : CbmImageDos δ) (name : Bytes) : CbmImageDos δ :=
  { d with
    listening := false, active := false, channel := 0, opening := false
    name := name.take 80 }.openChannel 0 (name.take 80)

/-- The file that a name opens. -/
def content (d : CbmImageDos δ) (name : Bytes) : Option Bytes :=
  ((opened d name).files 0).map Prod.fst

/-- The queue of a fastload is that of the first 2^24 bytes of the file. -/
theorem burstOut_fastload (unit : d.unit ≤ 30) {name data : Bytes}
    (file : content d name = some data) : (IecDrive.fastload d name).burstOut =
      if (data.take (2 ^ 24)).length < 2 then [0x02]
      else IecDrive.fastloadBlocks (data.take (2 ^ 24)) (data.take (2 ^ 24)).length 0 := by
  obtain ⟨listenMask, talkMask⟩ := IecDrive.unit_mask d.unit unit
  have named : name.foldl (fun d a => (d.ciout a).2)
      ((d.listen (0x20 ||| BitVec.ofNat 8 d.unit)).2.second 0xF0).2 =
        { d with
          listening := true, active := true, channel := 0, opening := true
          name := name.take 80 } := by
    rw [IecDrive.listen_ours listenMask, IecDrive.second_open rfl]
    exact ciout_take rfl rfl name (Nat.zero_le _)
  have released : ({ d with
      listening := true, active := true, channel := 0, opening := true
      name := name.take 80 } : CbmImageDos δ).unlsn.2 = opened d name := IecDrive.unlsn_open rfl rfl
  have openedUnit : (opened d name).unit = d.unit := CbmImageDos.unit_openChannel _ (by decide) _
  have offered : (((opened d name).talk (0x40 ||| BitVec.ofNat 8 d.unit)).2.tksa 0x60).2 =
      { opened d name with talking := true, active := true, channel := 0 } :=
    IecDrive.talk_zero (talkMask.trans openedUnit.symm)
  obtain ⟨⟨data', pos⟩, here, rfl⟩ := Option.map_eq_some_iff.mp file
  have start : pos = 0 := by
    obtain ⟨f, files, first⟩ := (CbmImageDos.opened_openChannel { d with
      listening := false, active := false, channel := 0, opening := false
      name := name.take 80 } 0 (name.take 80)).files
    have same : f = some (data', pos) := by
      rw [← here, opened, files, Function.update_self]
    exact (first data' pos same).2
  have bytes : (IecDrive.fastloadBytes (2 ^ 24)
      { opened d name with talking := true, active := true, channel := 0 }).1 = data'.take (2 ^ 24) := by
    rw [start] at here
    exact fastloadBytes_eq _ 0 rfl rfl here
  unfold IecDrive.fastload
  dsimp only
  rw [named, released, offered, bytes]

/-- A burst fastload hands out a file of two bytes or more, up to its first 2^24 bytes, with
nothing left over. -/
theorem kernalReads_fastload (unit : d.unit ≤ 30) {name data : Bytes}
    (file : content d name = some data) (two : 2 ≤ data.length) :
    kernalReads true (IecDrive.fastload d name).burstOut = some (data.take (2 ^ 24)) := by
  have more : 2 ≤ (data.take (2 ^ 24)).length := by
    rw [List.length_take]
    omega
  rw [burstOut_fastload unit file, if_neg (Nat.not_lt.mpr more)]
  exact kernalReads_fastloadBlocks more _ 0 (by omega) (by omega)

end Reading

/-! ## One file -/

/-- A disk with one file. -/
structure OneFile where
  data : Bytes

instance : CbmSectorDisk OneFile where
  getDirectory _ := [⟨str "A", 2, 1⟩]
  readFile d _ := some d.data
  getDiskName _ := str "ONE"
  getDiskId _ := str "2A"
  getDosType _ := str "2A"
  getFreeBlocks _ := 0
  size _ := 0
  byteAt _ _ := 0
  sectorOffset _ _ _ := none
  writable _ := false
  writeSector d _ _ _ := (false, d)
  formatSectors d := (false, d)
  writeFile d _ _ _ _ := (26, d)
  scratch d _ := (0, d)
  rename d _ _ := (26, d)

def oneFile (data : Bytes) : CbmImageDos OneFile where
  disk := ⟨data⟩
  unit := 8
  listening := false
  talking := false
  opening := false
  active := false
  channel := 0
  name := []
  cmd := []
  ch := fun _ => .closed
  error := []
  errorPos := 0
  burstOut := []
  fastload := []
  fastloadPending := false
  bwLeft := 0
  bwTrack := 0
  bwSector := 0
  bwBuf := []
  burstLast := 0
  loggedIn := false
  burstInterleave := 0

theorem content_oneFile (data : Bytes) : content (oneFile data) (str "A") = some data := rfl

theorem kernalReads_fastload_small :
    kernalReads true (IecDrive.fastload (oneFile [1, 8, 3]) (str "A")).burstOut = some [1, 8, 3] :=
  kernalReads_fastload (by decide) (content_oneFile [1, 8, 3]) (by decide)

/-- A file of 2^24 bytes and one more is cut. -/
theorem not_kernalReads_long :
    kernalReads true (IecDrive.fastload (oneFile (List.replicate (2 ^ 24 + 1) 0)) (str "A")).burstOut ≠
      some (List.replicate (2 ^ 24 + 1) 0) := by
  have count : (List.replicate (2 ^ 24 + 1) (0 : Byte)).length = 2 ^ 24 + 1 := List.length_replicate
  rw [kernalReads_fastload (by decide) (content_oneFile _) (by rw [count]; omega)]
  intro same
  have lengths := congrArg List.length (Option.some.inj same)
  rw [List.length_take, count] at lengths
  omega

end Mmemu.Guarantees.BurstFastload
