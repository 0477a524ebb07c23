import Mmemu.Source.Datasette

/-!
# Tapes: what is recorded plays back

A pulse is stored in one byte, in eighths, or as a zero and 24 bits of it. Read
back from the file, the pulses are those recorded, short ones rounded down,
exactly when each fits 24 bits and the whole recording the file's 32-bit size: a
longer pulse is cut, and one whose low 24 bits are zero reads as the end.
-/
namespace Mmemu.Guarantees.TapeRoundTrip
open Mmemu.Library.LittleEndian Mmemu.Source.Tape

/-! ## Playing a tape off -/

/-- Reading pulse after pulse from an offset gives this list, and then the end. -/
def PlaysBack (t : TapArchive) : BitVec 32 → List ℕ → Prop
  | offset, [] => ∃ offset', nextPulse t offset = some (0, offset')
  | offset, pulse :: rest =>
    pulse ≠ 0 ∧ ∃ val offset', nextPulse t offset = some (val, offset') ∧ val.toNat = pulse ∧
      PlaysBack t offset' rest

/-! ## One pulse -/

/-- Whether a count of cycles is stored in one byte. -/
def isShort (cycles : ℕ) : Prop := 0 < cycles / 8 ∧ cycles / 8 ≤ 0xFF

instance (cycles : ℕ) : Decidable (isShort cycles) := inferInstanceAs (Decidable (_ ∧ _))

/-- What is read for a stored count. -/
def readBack (cycles : BitVec 32) : ℕ :=
  if isShort cycles.toNat then cycles.toNat / 8 * 8 else cycles.toNat % 2 ^ 24

theorem pulseBytes_short {cycles : BitVec 32} (h : isShort cycles.toNat) :
    pulseBytes cycles = [BitVec.ofNat 8 (cycles.toNat / 8)] := if_pos h

theorem pulseBytes_long {cycles : BitVec 32} (h : ¬ isShort cycles.toNat) :
    pulseBytes cycles = 0 :: encode 3 cycles.toNat := if_neg h

theorem length_pulseBytes (cycles : BitVec 32) :
    (pulseBytes cycles).length = if isShort cycles.toNat then 1 else 4 := by
  by_cases h : isShort cycles.toNat
  · rw [pulseBytes_short h, if_pos h, List.length_singleton]
  · rw [pulseBytes_long h, if_neg h, List.length_cons, length_encode]

theorem encode_three (n : ℕ) :
    encode 3 n = [BitVec.ofNat 8 n, BitVec.ofNat 8 (n / 256), BitVec.ofNat 8 (n / 256 / 256)] := rfl

theorem getElem?_of_drop {α : Type*} {data rest : List α} {offset : ℕ} (i : ℕ)
    (h : data.drop offset = rest) : data[offset + i]? = rest[i]? := by
  rw [← h, List.getElem?_drop]

theorem toNat_plus (offset : BitVec 32) : (offset + 1).toNat = (offset.toNat + 1) % 2 ^ 32 ∧
    (offset + 1 + 1).toNat = (offset.toNat + 2) % 2 ^ 32 ∧
    (offset + 1 + 2).toNat = (offset.toNat + 3) % 2 ^ 32 ∧
    (offset + 1 + 3).toNat = (offset.toNat + 4) % 2 ^ 32 := by
  have one : (offset + 1).toNat = (offset.toNat + 1) % 2 ^ 32 := BitVec.toNat_add offset 1
  refine ⟨one, ?_, ?_, ?_⟩
  · have step : (offset + 1 + 1).toNat = ((offset + 1).toNat + 1) % 2 ^ 32 :=
      BitVec.toNat_add (offset + 1) 1
    omega
  · have step : (offset + 1 + 2).toNat = ((offset + 1).toNat + 2) % 2 ^ 32 :=
      BitVec.toNat_add (offset + 1) 2
    omega
  · have step : (offset + 1 + 3).toNat = ((offset + 1).toNat + 3) % 2 ^ 32 :=
      BitVec.toNat_add (offset + 1) 3
    omega

section Reading

variable {t : TapArchive} {offset : BitVec 32}

theorem nextPulse_end (h : t.data.drop offset.toNat = []) :
    nextPulse t offset = some (0, offset) := by
  have past : t.data.length ≤ offset.toNat := List.drop_eq_nil_iff.mp h
  simp [nextPulse, past]

/-- A whole pulse is read back and passed over. -/
theorem nextPulse_whole {cycles : BitVec 32} {rest : List Byte} (small : t.data.length < 2 ^ 32)
    (h : t.data.drop offset.toNat = pulseBytes cycles ++ rest) :
    ∃ val offset', nextPulse t offset = some (val, offset') ∧ val.toNat = readBack cycles ∧
      t.data.drop offset'.toNat = rest := by
  have length := congrArg List.length h
  rw [List.length_drop, List.length_append, length_pulseBytes] at length
  have inside : ¬ t.data.length ≤ offset.toNat := by split at length <;> omega
  obtain ⟨one, two, three, four⟩ := toNat_plus offset
  have first := getElem?_of_drop 0 h
  by_cases short : isShort cycles.toNat
  · rw [if_pos short] at length
    rw [pulseBytes_short short] at h first
    obtain ⟨positive, bound⟩ := short
    have value : (BitVec.ofNat 8 (cycles.toNat / 8)).toNat = cycles.toNat / 8 := by
      rw [BitVec.toNat_ofNat]
      omega
    have marked : 0 < BitVec.ofNat 8 (cycles.toNat / 8) := by
      rw [BitVec.lt_def, value]
      exact positive
    have passed : (offset + 1).toNat = offset.toNat + 1 := by omega
    refine ⟨(BitVec.ofNat 8 (cycles.toNat / 8)).setWidth 32 * 8, offset + 1, ?_, ?_, ?_⟩
    · have here : t.data[offset.toNat]? = some (BitVec.ofNat 8 (cycles.toNat / 8)) := first
      simp only [nextPulse, if_neg inside, here, Option.bind_eq_bind, Option.bind_some,
        if_pos marked, Option.pure_def]
    · have eight : (8 : BitVec 32).toNat = 8 := rfl
      rw [readBack, if_pos ⟨positive, bound⟩, BitVec.toNat_mul, BitVec.toNat_setWidth, value, eight]
      omega
    · rw [passed, ← List.drop_drop, h]
      rfl
  · rw [if_neg short] at length
    rw [pulseBytes_long short, encode_three] at h first
    have b1 := getElem?_of_drop 1 h
    have b2 := getElem?_of_drop 2 h
    have b3 := getElem?_of_drop 3 h
    have passed : (offset + 1 + 3).toNat = offset.toNat + 4 := by omega
    have at1 : (offset + 1).toNat = offset.toNat + 1 := by omega
    have at2 : (offset + 1 + 1).toNat = offset.toNat + 2 := by omega
    have at3 : (offset + 1 + 2).toNat = offset.toNat + 3 := by omega
    have fits : ¬ t.data.length < offset.toNat + 4 := by omega
    refine ⟨BitVec.ofNat 32 (decode (encode 3 cycles.toNat)), offset + 1 + 3, ?_, ?_, ?_⟩
    · have here : t.data[offset.toNat]? = some 0 := first
      simp only [nextPulse, if_neg inside, here, Option.bind_eq_bind, Option.bind_some,
        BitVec.lt_irrefl, if_false, passed, if_neg fits, at1, at2, at3, b1, b2, b3,
        Option.pure_def]
      rfl
    · rw [readBack, if_neg short, decode_encode, BitVec.toNat_ofNat]
      omega
    · rw [passed, ← List.drop_drop, h]
      rfl

/-- A pulse whose bytes are cut off is no pulse. -/
theorem nextPulse_cut {cycles : BitVec 32} {k : ℕ} (small : t.data.length < 2 ^ 32)
    (cut : k < (pulseBytes cycles).length) (h : t.data.drop offset.toNat = (pulseBytes cycles).take k) :
    ∀ val offset', nextPulse t offset = some (val, offset') → val = 0 := by
  intro val offset' read
  cases k with
  | zero =>
    rw [nextPulse_end (by simpa using h)] at read
    exact (Prod.mk.inj (Option.some.inj read)).1.symm
  | succ k =>
    have long : ¬ isShort cycles.toNat := by
      intro short
      rw [pulseBytes_short short, List.length_singleton] at cut
      omega
    rw [pulseBytes_long long] at h cut
    rw [List.length_cons, length_encode] at cut
    have length := congrArg List.length h
    simp only [List.length_drop, List.length_take, List.length_cons, length_encode] at length
    have inside : ¬ t.data.length ≤ offset.toNat := by omega
    have first : t.data[offset.toNat]? = some 0 := by
      simpa using getElem?_of_drop 0 h
    obtain ⟨one, two, three, four⟩ := toNat_plus offset
    simp only [nextPulse, if_neg inside, first, Option.bind_eq_bind, Option.bind_some,
      BitVec.lt_irrefl, if_false, Option.pure_def] at read
    split at read
    · exact (Prod.mk.inj (Option.some.inj read)).1.symm
    · -- the offset wraps round only where a byte after it lies outside the data
      rename_i fits
      obtain ⟨b0, at0, read⟩ := Option.bind_eq_some_iff.mp read
      obtain ⟨b1, at1, read⟩ := Option.bind_eq_some_iff.mp read
      obtain ⟨b2, at2, read⟩ := Option.bind_eq_some_iff.mp read
      obtain ⟨in0, _⟩ := List.getElem?_eq_some_iff.mp at0
      obtain ⟨in1, _⟩ := List.getElem?_eq_some_iff.mp at1
      obtain ⟨in2, _⟩ := List.getElem?_eq_some_iff.mp at2
      omega

end Reading

/-! ## A whole recording -/

section Recording

variable {α : Type*} (stored : α → BitVec 32) (want : α → ℕ)

/-- The bytes of a recording, possibly cut, play back as wanted exactly when each
pulse does and none is cut. -/
theorem playsBack_iff {t : TapArchive} (small : t.data.length < 2 ^ 32) (pulses : List α)
    (positive : ∀ p ∈ pulses, want p ≠ 0) (offset : BitVec 32) (k : ℕ)
    (h : t.data.drop offset.toNat = (pulses.flatMap fun p => pulseBytes (stored p)).take k) :
    PlaysBack t offset (pulses.map want) ↔
      (∀ p ∈ pulses, readBack (stored p) = want p) ∧
        (pulses.flatMap fun p => pulseBytes (stored p)).length ≤ k := by
  induction pulses generalizing offset k with
  | nil =>
    have done : nextPulse t offset = some (0, offset) := nextPulse_end (by simpa using h)
    simp [PlaysBack, done]
  | cons p rest ih =>
    rw [List.flatMap_cons] at h ⊢
    rw [List.map_cons, PlaysBack]
    by_cases cut : k < (pulseBytes (stored p)).length
    · rw [List.take_append_of_le_length (by omega)] at h
      have nothing := nextPulse_cut small cut h
      constructor
      · rintro ⟨some_, val, offset', read, value, _⟩
        rw [nothing val offset' read] at value
        exact absurd value.symm some_
      · rintro ⟨_, whole⟩
        rw [List.length_append] at whole
        omega
    · have split : k = (pulseBytes (stored p)).length + (k - (pulseBytes (stored p)).length) := by
        omega
      rw [split, List.take_length_add_append] at h
      obtain ⟨val, offset', read, value, later⟩ := nextPulse_whole small h
      have rest_ := ih (fun q mem => positive q (List.mem_cons_of_mem p mem)) offset' _ later
      rw [List.forall_mem_cons, List.length_append]
      constructor
      · rintro ⟨_, val', offset'', read', value', plays⟩
        obtain ⟨rfl, rfl⟩ := Prod.mk.inj (Option.some.inj (read.symm.trans read'))
        obtain ⟨all, whole⟩ := rest_.mp plays
        exact ⟨⟨value.symm.trans value', all⟩, by omega⟩
      · rintro ⟨⟨here, all⟩, whole⟩
        refine ⟨positive p (List.mem_cons_self ..), val, offset', read, value.trans here, ?_⟩
        exact rest_.mpr ⟨all, by omega⟩

end Recording

/-! ## The file -/

theorem readAt_field (before field after buffer : List Byte) :
    readAt (before ++ field ++ after) before.length field.length buffer = field := by
  have got : ((before ++ field ++ after).drop before.length).take field.length = field := by
    rw [List.append_assoc, List.drop_left, List.take_left]
  rw [readAt, got]
  exact List.take_left

/-- The file of a recording loads, and its data is the recording, as far as 32
bits give its size. -/
theorem load_saveRecording (t r : TapArchive) (uninit : List Byte) :
    (load t uninit (saveRecording r)).1 = true ∧
      (load t uninit (saveRecording r)).2.data = r.recordBuf.take (r.recordBuf.length % 2 ^ 32) := by
  have file : ∃ sign platform, saveRecording r =
      sign ++ [if r.recC16 then 2 else 1] ++ platform ++ encode 4 (r.recordBuf.length % 2 ^ 32) ++
        r.recordBuf ∧ (sign = signature16 ∨ sign = signature64) ∧ sign.length = 12 ∧
        platform.length = 3 := by
    refine ⟨_, _, rfl, ?_, ?_, ?_⟩
    · cases r.recC16 <;> simp
    · cases r.recC16 <;> rfl
    · cases r.recC16 <;> rfl
  obtain ⟨sign, platform, file, known, signLength, platformLength⟩ := file
  have signature : readAt (saveRecording r) 0 12 t.header.signature = sign := by
    have field := readAt_field [] sign ([if r.recC16 then 2 else 1] ++ platform ++
      encode 4 (r.recordBuf.length % 2 ^ 32) ++ r.recordBuf) t.header.signature
    rw [signLength] at field
    rw [file]
    simpa using field
  have size : readAt (saveRecording r) 16 4 uninit = encode 4 (r.recordBuf.length % 2 ^ 32) := by
    have field := readAt_field (sign ++ [if r.recC16 then 2 else 1] ++ platform)
      (encode 4 (r.recordBuf.length % 2 ^ 32)) r.recordBuf uninit
    rw [length_encode] at field
    rw [file]
    simpa [signLength, platformLength] using field
  have sizeValue : (BitVec.ofNat 32 (decode (encode 4 (r.recordBuf.length % 2 ^ 32)))).toNat =
      r.recordBuf.length % 2 ^ 32 := by
    rw [decode_encode, BitVec.toNat_ofNat]
    omega
  have data (n : ℕ) (fits : n ≤ r.recordBuf.length) (buffer : List Byte) :
      readAt (saveRecording r) 20 n buffer = r.recordBuf.take n := by
    have field := readAt_field (sign ++ [if r.recC16 then 2 else 1] ++ platform ++
      encode 4 (r.recordBuf.length % 2 ^ 32)) (r.recordBuf.take n) (r.recordBuf.drop n) buffer
    rw [List.length_take_of_le fits, List.append_assoc _ (r.recordBuf.take n), List.take_append_drop,
      ← file] at field
    simpa [signLength, platformLength] using field
  have accepted : ¬ ((!decide (sign = signature16)) = true ∧ sign ≠ signature64) := by
    rcases known with rfl | rfl <;> simp
  simp only [load, signature, if_neg accepted, size, sizeValue]
  exact ⟨trivial, data _ (Nat.mod_le ..) _⟩

/-! ## What was recorded -/

/-- Pulses recorded one after the other, each as the recorder passes it on. -/
def record {α : Type*} (stored : α → BitVec 32) (t : TapArchive) (pulses : List α) : TapArchive :=
  pulses.foldl (fun t p => appendPulse t (stored p)) (startRecording t)

theorem recordBuf_record {α : Type*} (stored : α → BitVec 32) (t : TapArchive) (pulses : List α) :
    (record stored t pulses).recordBuf = pulses.flatMap fun p => pulseBytes (stored p) := by
  have run (t : TapArchive) : (pulses.foldl (fun t p => appendPulse t (stored p)) t).recordBuf =
      t.recordBuf ++ pulses.flatMap fun p => pulseBytes (stored p) := by
    induction pulses generalizing t with
    | nil => simp
    | cons p rest ih =>
      rw [List.foldl_cons, ih, List.flatMap_cons, appendPulse, List.append_assoc]
  rw [record, run]
  rfl

/-- The tape that is loaded from the file of a recording. -/
def reloaded (t r : TapArchive) (uninit : List Byte) : TapArchive :=
  (load t uninit (saveRecording r)).2

theorem record_playsBack_iff {α : Type*} (stored : α → BitVec 32) (want : α → ℕ) (t r : TapArchive)
    (uninit : List Byte) (pulses : List α) (positive : ∀ p ∈ pulses, want p ≠ 0) :
    PlaysBack (reloaded t (record stored r pulses) uninit) 0 (pulses.map want) ↔
      (∀ p ∈ pulses, readBack (stored p) = want p) ∧
        (pulses.map fun p => (pulseBytes (stored p)).length).sum < 2 ^ 32 := by
  have data : (reloaded t (record stored r pulses) uninit).data =
      (pulses.flatMap fun p => pulseBytes (stored p)).take
        ((pulses.flatMap fun p => pulseBytes (stored p)).length % 2 ^ 32) := by
    have loaded := (load_saveRecording t (record stored r pulses) uninit).2
    rw [recordBuf_record] at loaded
    exact loaded
  have small : (reloaded t (record stored r pulses) uninit).data.length < 2 ^ 32 := by
    rw [data, List.length_take]
    omega
  have start : (reloaded t (record stored r pulses) uninit).data.drop (0 : BitVec 32).toNat =
      (pulses.flatMap fun p => pulseBytes (stored p)).take
        ((pulses.flatMap fun p => pulseBytes (stored p)).length % 2 ^ 32) := data
  rw [playsBack_iff stored want small pulses positive 0 _ start, List.length_flatMap]
  refine and_congr_right fun _ => ?_
  omega

/-- What playing a pulse of some cycles should give. -/
def played (cycles : ℕ) : ℕ := if isShort cycles then cycles / 8 * 8 else cycles

/-- The bytes a pulse takes. -/
def encodedLength (cycles : ℕ) : ℕ := if isShort cycles then 1 else 4

theorem played_ne_zero {cycles : ℕ} (h : cycles ≠ 0) : played cycles ≠ 0 := by
  by_cases short : isShort cycles
  · have positive := short.1
    rw [played, if_pos short]
    omega
  · rwa [played, if_neg short]

theorem readBack_lt (passed : BitVec 32) : readBack passed < 2 ^ 24 := by
  by_cases short : isShort passed.toNat
  · have bound := short.2
    rw [readBack, if_pos short]
    omega
  · rw [readBack, if_neg short]
    exact Nat.mod_lt _ (by decide)

/-- A pulse that is passed on whole when it is small reads back right if it is. -/
theorem readBack_eq_played_iff {passed : BitVec 32} {cycles : ℕ}
    (whole : cycles < 2 ^ 24 → passed.toNat = cycles) :
    readBack passed = played cycles ↔ cycles < 2 ^ 24 := by
  constructor
  · intro same
    have bound := readBack_lt passed
    rw [same] at bound
    by_cases short : isShort cycles
    · have small := short.2
      omega
    · rwa [played, if_neg short] at bound
  · intro small
    rw [readBack, played, whole small, Nat.mod_eq_of_lt small]

/-- What the tick of a datasette in the usual mode passes on for a pulse. -/
def fullWave (cycles : BitVec 64) : BitVec 32 := cycles.setWidth 32

/-! ### From the write line to the pulses -/

/-- The cycles between the rising edges of a write line that is sampled after every
stretch of cycles: `since` counts from the last one, `last` is the level before. -/
def waves : Option (BitVec 64) → Bool → List (BitVec 64 × Bool) → List (BitVec 64)
  | _, _, [] => []
  | since, last, (cycles, level) :: rest =>
    let since := since.map (· + cycles)
    if level && !last then since.toList ++ waves (some 0) level rest else waves since level rest

/-- A tick with the write line at a level. -/
def feed (d : Datasette) (sample : BitVec 64 × Bool) : Option Datasette :=
  (tick { d with writeLine := some sample.2 } sample.1).map Prod.fst

/-- A datasette that records in the usual mode, with its motor on. -/
structure Records (d : Datasette) : Prop where
  recording : d.recording = true
  motor : d.motorLine = some false
  full : d.halfWave = false
  idle : d.playing = false

/-- The cycles since the last rising edge, when there was one. -/
def since (d : Datasette) : Option (BitVec 64) :=
  if d.haveWriteEdge then some (d.totalCycles - d.writePulseStart) else none

theorem Records.recordEdge {d : Datasette} (h : Records d) (level : Bool) :
    Records (recordEdge d level) := by
  unfold Mmemu.Source.Tape.recordEdge
  repeat' split
  all_goals exact ⟨h.recording, h.motor, h.full, h.idle⟩

theorem feed_eq {d : Datasette} (h : Records d) (cycles : BitVec 64) (level : Bool) :
    feed d (cycles, level) = some (recordEdge
      { d with writeLine := some level, totalCycles := d.totalCycles + cycles, motorOn := true }
      level) := by
  have ready : Records { d with writeLine := some level, totalCycles := d.totalCycles + cycles
                                motorOn := true } := ⟨h.recording, h.motor, h.full, h.idle⟩
  have idle := (ready.recordEdge level).idle
  simp only [feed, tick, h.motor, h.recording, Bool.not_false, Bool.true_and, if_true]
  rw [h.motor, h.recording] at idle
  rw [idle]
  rfl

theorem feed_records {d : Datasette} (h : Records d) (cycles : BitVec 64) (level : Bool) :
    ∃ d', feed d (cycles, level) = some d' ∧ Records d' ∧ d'.lastWriteLevel = level ∧
      since d' = (if level && !d.lastWriteLevel then some 0 else (since d).map (· + cycles)) ∧
      d'.tape.recordBuf = d.tape.recordBuf ++
        (if level && !d.lastWriteLevel then ((since d).map (· + cycles)).toList else []).flatMap
          fun p => pulseBytes (fullWave p) := by
  have later (start : BitVec 64) : d.totalCycles + cycles - start = d.totalCycles - start + cycles := by
    rw [BitVec.sub_eq_add_neg, BitVec.sub_eq_add_neg, BitVec.add_assoc, BitVec.add_comm cycles,
      ← BitVec.add_assoc]
  have ready : Records { d with writeLine := some level, totalCycles := d.totalCycles + cycles
                                motorOn := true } := ⟨h.recording, h.motor, h.full, h.idle⟩
  refine ⟨_, feed_eq h cycles level, ready.recordEdge level, ?_⟩
  unfold recordEdge
  by_cases same : level = d.lastWriteLevel
  · subst same
    simp only [if_true, Bool.and_not_self, Bool.false_eq_true, if_false, List.flatMap_nil,
      List.append_nil, since, later, true_and, and_true]
    cases d.haveWriteEdge <;> rfl
  · cases level with
    | false =>
      simp only [if_neg same, h.full, Bool.false_eq_true, if_false, Bool.false_and,
        List.flatMap_nil, List.append_nil, since, later, true_and, and_true]
      cases d.haveWriteEdge <;> rfl
    | true =>
      have rising : d.lastWriteLevel = false := by simpa using same
      simp only [h.full, Bool.false_eq_true, if_false, if_true, rising, Bool.not_false,
        Bool.true_and, since, sinceStart, later]
      cases d.haveWriteEdge <;> simp [appendPulse, fullWave]

/-- What the ticks of a recording put on the tape are the waves of the line. -/
theorem recordBuf_of_waves (samples : List (BitVec 64 × Bool)) {d : Datasette} (h : Records d) :
    ∃ d', samples.foldlM feed d = some d' ∧ d'.tape.recordBuf = d.tape.recordBuf ++
      (waves (since d) d.lastWriteLevel samples).flatMap fun p => pulseBytes (fullWave p) := by
  induction samples generalizing d with
  | nil => exact ⟨d, rfl, by simp [waves]⟩
  | cons sample rest ih =>
    obtain ⟨cycles, now⟩ := sample
    obtain ⟨d₁, fed, records, level, from_, buf⟩ := feed_records h cycles now
    obtain ⟨d', run, whole⟩ := ih records
    refine ⟨d', by rw [List.foldlM_cons, fed]; exact run, ?_⟩
    rw [whole, buf, level, from_, List.append_assoc]
    congr 1
    simp only [waves]
    by_cases rising : (now && !d.lastWriteLevel) = true
    · rw [if_pos rising, if_pos rising, if_pos rising, List.flatMap_append]
    · rw [if_neg rising, if_neg rising, if_neg rising, List.flatMap_nil, List.nil_append]

/-! ### The tape plays back -/

/-- For every archive, every 64-bit pulses and whatever was loaded before. -/
theorem tape_plays_back_iff (t r : TapArchive) (uninit : List Byte) (pulses : List (BitVec 64))
    (positive : ∀ p ∈ pulses, 0 < p.toNat) :
    PlaysBack (reloaded t (record fullWave r pulses) uninit) 0 (pulses.map fun p => played p.toNat) ↔
      (∀ p ∈ pulses, p.toNat < 2 ^ 24) ∧
        (pulses.map fun p => encodedLength p.toNat).sum < 2 ^ 32 := by
  rw [record_playsBack_iff fullWave _ t r uninit pulses fun p mem =>
    played_ne_zero (Nat.pos_iff_ne_zero.mp (positive p mem))]
  have whole (p : BitVec 64) (small : p.toNat < 2 ^ 24) : (fullWave p).toNat = p.toNat := by
    rw [fullWave, BitVec.toNat_setWidth]
    omega
  have each : (∀ p ∈ pulses, readBack (fullWave p) = played p.toNat) ↔
      ∀ p ∈ pulses, p.toNat < 2 ^ 24 :=
    forall₂_congr fun p _ => readBack_eq_played_iff (whole p)
  rw [each]
  refine and_congr_right fun fit => ?_
  have lengths : (pulses.map fun p => (pulseBytes (fullWave p)).length) =
      pulses.map fun p => encodedLength p.toNat := by
    refine List.map_congr_left fun p mem => ?_
    rw [length_pulseBytes, whole p (fit p mem), encodedLength]
  rw [lengths]

/-- A pulse of a byte, one of four, and one shorter than eight cycles. -/
theorem tape_plays_back_iff_three :
    PlaysBack (reloaded empty (record fullWave empty [1003, 70000, 5]) []) 0
        ([1003, 70000, 5].map fun p : BitVec 64 => played p.toNat) ↔
      (∀ p ∈ [1003, 70000, (5 : BitVec 64)], p.toNat < 2 ^ 24) ∧
        ([1003, 70000, 5].map fun p : BitVec 64 => encodedLength p.toNat).sum < 2 ^ 32 :=
  tape_plays_back_iff empty empty [] [1003, 70000, 5] (by simp)

/-- A pause of 2^24 cycles ends the tape before the pulse after it. -/
theorem pause_not_played :
    ¬ PlaysBack (reloaded empty (record fullWave empty [0x1000000, 1000]) []) 0
        ([0x1000000, 1000].map fun p : BitVec 64 => played p.toNat) := by
  rw [record_playsBack_iff fullWave _ empty empty [] _ (by simp [played, isShort])]
  simp [readBack, played, isShort, fullWave]

/-! ### A recorded line -/

/-- Only the data decides what is played. -/
theorem playsBack_congr {t t' : TapArchive} (same : t.data = t'.data) (offset : BitVec 32) (pulses : List ℕ) :
    PlaysBack t offset pulses ↔ PlaysBack t' offset pulses := by
  have next (offset : BitVec 32) : nextPulse t offset = nextPulse t' offset := by
    unfold nextPulse
    rw [same]
  induction pulses generalizing offset with
  | nil => simp only [PlaysBack, next]
  | cons p rest ih => simp only [PlaysBack, next, ih]

/-- What a recording of a write line is saved as plays the waves of the line, as far as each is shorter
than 2^24 cycles and their bytes have a length. -/
theorem saved_line_plays_iff (t : TapArchive) (uninit : List Byte) {d : Datasette} {level : Bool}
    (line : d.writeLine = some level) (motor : d.motorLine = some false) (full : d.halfWave = false)
    (samples : List (BitVec 64 × Bool)) (positive : ∀ p ∈ waves none level samples, 0 < p.toNat) :
    ∃ d', samples.foldlM feed (startRecord d).2 = some d' ∧
      (PlaysBack (reloaded t (stopRecord d').tape uninit) 0
          ((waves none level samples).map fun p => played p.toNat) ↔
        (∀ p ∈ waves none level samples, p.toNat < 2 ^ 24) ∧
          ((waves none level samples).map fun p => (pulseBytes (fullWave p)).length).sum < 2 ^ 32) := by
  have started : Records (startRecord d).2 ∧ since (startRecord d).2 = none ∧
      (startRecord d).2.lastWriteLevel = level ∧ (startRecord d).2.tape.recordBuf = [] := by
    unfold startRecord
    rw [line]
    exact ⟨⟨rfl, motor, full, rfl⟩, rfl, rfl, rfl⟩
  obtain ⟨records, fresh, last, blank⟩ := started
  obtain ⟨d', run, buf⟩ := recordBuf_of_waves samples records
  rw [fresh, last, blank, List.nil_append] at buf
  have stopped : (stopRecord d').tape.recordBuf = d'.tape.recordBuf := by
    unfold stopRecord
    split <;> rfl
  refine ⟨d', run, ?_⟩
  have data : (reloaded t (stopRecord d').tape uninit).data =
      (reloaded t (record fullWave t (waves none level samples)) uninit).data := by
    unfold reloaded
    rw [(load_saveRecording t _ uninit).2, (load_saveRecording t _ uninit).2, stopped, buf, recordBuf_record]
  rw [playsBack_congr data, record_playsBack_iff fullWave _ t t uninit _ fun p mem =>
    played_ne_zero (Nat.pos_iff_ne_zero.mp (positive p mem))]
  refine and_congr_left fun _ => forall₂_congr fun p _ => readBack_eq_played_iff fun small => ?_
  rw [fullWave, BitVec.toNat_setWidth]
  omega
/-! ### On the read line -/

/-- Ticks with the levels that they put on the read line. -/
def playTicks : Datasette → List (BitVec 64) → Option (Datasette × List Bool)
  | d, [] => some (d, [])
  | d, cycles :: rest => do
    let (d, now) ← tick d cycles
    let (d, later) ← playTicks d rest
    return (d, now ++ later)

/-- A datasette that plays in the usual mode, with its motor on. -/
structure Plays (d : Datasette) (remaining : ℕ) (pulses : List ℕ) : Prop where
  playing : d.playing = true
  motor : d.motorLine = some false
  full : d.halfWave = false
  still : d.recording = false
  due : d.pulseRemaining = BitVec.ofNat 32 remaining
  tape : PlaysBack d.tape d.offset pulses

/-- The falls and rises of the line by a time, one for each pulse that has begun. -/
def edges (remaining time : ℕ) (pulses : List ℕ) : List Bool :=
  ((List.range pulses.length).filter fun j => remaining + (pulses.take j).sum ≤ time).flatMap fun _ => [false, true]

theorem edges_waiting {remaining time : ℕ} (early : time < remaining) (pulses : List ℕ) :
    edges remaining time pulses = [] := by
  unfold edges
  rw [List.filter_eq_nil_iff.mpr fun j _ => by simp; omega]
  rfl

theorem edges_begun {remaining time : ℕ} (begun : remaining ≤ time) (p : ℕ) (rest : List ℕ) :
    edges remaining time (p :: rest) = [false, true] ++ edges (remaining + p) time rest := by
  unfold edges
  rw [List.length_cons, List.range_succ_eq_map, List.filter_cons_of_pos (by simpa using begun), List.flatMap_cons,
    List.filter_map, List.flatMap_map]
  simp only [Function.comp_def, List.take_succ_cons, List.sum_cons, Nat.add_assoc]
  rfl

theorem edges_later (remaining time cycles : ℕ) (pulses : List ℕ) :
    edges (remaining + cycles) (time + cycles) pulses = edges remaining time pulses := by
  unfold edges
  congr 2
  funext j
  simp only [decide_eq_decide]
  omega

theorem running_iff (x : BitVec 32) : (0#32).slt x = true ↔ 0 < x.toNat ∧ x.toNat < 2 ^ 31 := by
  rw [BitVec.slt, decide_eq_true_eq, BitVec.toInt_eq_toNat_cond x]
  have zero : (0#32).toInt = 0 := rfl
  have bound := x.isLt
  rw [zero]
  split <;> omega

theorem tick_plays {d : Datasette} {remaining : ℕ} {pulses : List ℕ} (h : Plays d remaining pulses)
    (cycles : BitVec 64) : tick d cycles =
      playPulse { d with totalCycles := d.totalCycles + cycles, motorOn := true } cycles := by
  obtain ⟨playing, motor, full, still, due, tape⟩ := h
  unfold tick
  dsimp only
  rw [motor]
  cases d.writeLine <;> simp [still, playing]

/-- A tick that ends before the pulse does. -/
theorem Plays.wait {d : Datasette} {remaining : ℕ} {pulses : List ℕ} (h : Plays d remaining pulses)
    (small : remaining < 2 ^ 24) {cycles : BitVec 64} (early : cycles.toNat < remaining) :
    ∃ d', tick d cycles = some (d', []) ∧ Plays d' (remaining - cycles.toNat) pulses := by
  have left : (d.pulseRemaining - cycles.setWidth 32).toNat = remaining - cycles.toNat := by
    rw [h.due, BitVec.toNat_sub, BitVec.toNat_ofNat, BitVec.toNat_setWidth]
    omega
  have due : d.pulseRemaining - cycles.setWidth 32 = BitVec.ofNat 32 (remaining - cycles.toNat) := by
    rw [← left, BitVec.ofNat_toNat, BitVec.setWidth_eq]
  refine ⟨_, (tick_plays h cycles).trans (if_pos ((running_iff _).mpr ?_)),
    h.playing, h.motor, h.full, h.still, due, h.tape⟩
  change 0 < (d.pulseRemaining - cycles.setWidth 32).toNat ∧ (d.pulseRemaining - cycles.setWidth 32).toNat < 2 ^ 31
  omega

/-- A tick in which the next pulse begins. -/
theorem Plays.begin {d : Datasette} {remaining p : ℕ} {rest : List ℕ} (h : Plays d remaining (p :: rest))
    (small : p < 2 ^ 24) {cycles : BitVec 64} (late : remaining ≤ cycles.toNat) (short : cycles.toNat < p) :
    ∃ d', tick d cycles = some (d', [false, true]) ∧ Plays d' (remaining + p - cycles.toNat) rest := by
  obtain ⟨some_, val, offset, pulse, value, later⟩ := h.tape
  have over_ : ¬ (0#32).slt (d.pulseRemaining - cycles.setWidth 32) = true := by
    rw [running_iff, h.due, BitVec.toNat_sub, BitVec.toNat_ofNat, BitVec.toNat_setWidth]
    omega
  have due : d.pulseRemaining - cycles.setWidth 32 + val = BitVec.ofNat 32 (remaining + p - cycles.toNat) := by
    apply BitVec.eq_of_toNat_eq
    rw [h.due, BitVec.toNat_add, BitVec.toNat_sub, BitVec.toNat_ofNat, BitVec.toNat_setWidth, BitVec.toNat_ofNat, value]
    omega
  have nonzero : val ≠ 0 := by
    rintro rfl
    exact some_ value.symm
  refine ⟨{ d with totalCycles := d.totalCycles + cycles, motorOn := true, offset := offset
                   pulseRemaining := d.pulseRemaining - cycles.setWidth 32 + val }, ?_,
    h.playing, h.motor, h.full, h.still, due, later⟩
  rw [tick_plays h]
  unfold playPulse
  dsimp only
  rw [if_neg over_]
  simpa [nextGap, h.full, pulse] using nonzero

/-- As long as no tick is longer than a pulse, the pulses begin when those before them have passed,
however the time is cut into ticks. -/
theorem playTicks_edges {d : Datasette} {remaining : ℕ} {pulses : List ℕ} (h : Plays d remaining pulses)
    {ticks : List (BitVec 64)} (some_ : ticks = [] → 0 < remaining) (small : remaining < 2 ^ 24) (fit : ∀ p ∈ pulses, p < 2 ^ 24)
    (short : ∀ c ∈ ticks, ∀ p ∈ pulses, c.toNat < p)
    (inTime : (ticks.map BitVec.toNat).sum < remaining + pulses.sum) :
    ∃ d', playTicks d ticks = some (d', edges remaining (ticks.map BitVec.toNat).sum pulses) := by
  induction ticks generalizing d remaining pulses with
  | nil =>
    refine ⟨d, ?_⟩
    rw [List.map_nil, List.sum_nil, edges_waiting (some_ rfl)]
    rfl
  | cons c ticks ih =>
    rw [List.map_cons, List.sum_cons] at inTime ⊢
    have shorter (q) (mem : q ∈ pulses) : ∀ c ∈ ticks, c.toNat < q := fun c' at_ => short c' (.tail _ at_) q mem
    by_cases early : c.toNat < remaining
    · obtain ⟨d₁, ticked, plays⟩ := h.wait small early
      obtain ⟨d', run⟩ := ih plays (fun _ => by omega) (by omega) fit (fun c' at_ q mem => shorter q mem c' at_) (by omega)
      refine ⟨d', ?_⟩
      rw [playTicks, ticked]
      dsimp only [Option.bind_eq_bind, Option.bind_some]
      rw [run]
      have same := edges_later (remaining - c.toNat) (ticks.map BitVec.toNat).sum c.toNat pulses
      rw [Nat.sub_add_cancel early.le, Nat.add_comm _ c.toNat] at same
      rw [same]
      rfl
    · cases pulses with
      | nil =>
        rw [List.sum_nil] at inTime
        omega
      | cons p rest =>
        have in_pulse := short c (.head _) p (.head _)
        have bound := fit p (.head _)
        rw [List.sum_cons] at inTime
        obtain ⟨d₁, ticked, plays⟩ := h.begin bound (by omega) in_pulse
        obtain ⟨d', run⟩ := ih plays (fun _ => by omega) (by omega) (fun q mem => fit q (.tail _ mem))
          (fun c' at_ q mem => shorter q (.tail _ mem) c' at_) (by omega)
        refine ⟨d', ?_⟩
        rw [playTicks, ticked]
        dsimp only [Option.bind_eq_bind, Option.bind_some]
        rw [run]
        have same := edges_later (remaining + p - c.toNat) (ticks.map BitVec.toNat).sum c.toNat rest
        rw [Nat.sub_add_cancel (by omega), Nat.add_comm _ c.toNat] at same
        rw [edges_begun (by omega), same]
        rfl

theorem played_le (cycles : ℕ) : played cycles ≤ cycles := by
  unfold played
  split
  · omega
  · exact le_rfl

/-- A write line that was recorded and saved comes back on the read line of a datasette that mounts the
file: it falls and rises once for each wave, when the waves before it have passed. -/
theorem recorded_line_comes_back {d : Datasette} {level : Bool} (line : d.writeLine = some level)
    (motor : d.motorLine = some false) (full : d.halfWave = false) (samples : List (BitVec 64 × Bool))
    (fit : ∀ p ∈ waves none level samples, 0 < p.toNat ∧ p.toNat < 2 ^ 24)
    (size : ((waves none level samples).map fun p => (pulseBytes (fullWave p)).length).sum < 2 ^ 32)
    {e : Datasette} (motor' : e.motorLine = some false) (full' : e.halfWave = false) (still : e.recording = false)
    (uninit : List Byte) (ticks : List (BitVec 64)) (some_ : ticks ≠ [])
    (short : ∀ c ∈ ticks, ∀ p ∈ waves none level samples, c.toNat < played p.toNat)
    (inTime : (ticks.map BitVec.toNat).sum < ((waves none level samples).map fun p => played p.toNat).sum) :
    ∃ d' e', samples.foldlM feed (startRecord d).2 = some d' ∧
      playTicks (mount e uninit (saveRecording (stopRecord d').tape)).2 ticks =
        some (e', edges 0 (ticks.map BitVec.toNat).sum ((waves none level samples).map fun p => played p.toNat)) := by
  obtain ⟨d', run, saved⟩ := saved_line_plays_iff e.tape uninit line motor full samples fun p mem => (fit p mem).1
  have plays : Plays (mount e uninit (saveRecording (stopRecord d').tape)).2 0
      ((waves none level samples).map fun p => played p.toNat) := by
    unfold mount
    dsimp only
    rw [(load_saveRecording e.tape _ uninit).1, if_pos rfl]
    exact ⟨rfl, motor', full', still, rfl, saved.mpr ⟨fun p mem => (fit p mem).2, size⟩⟩
  obtain ⟨e', played_⟩ := playTicks_edges plays (fun none_ => absurd none_ some_) (by decide)
    (List.forall_mem_map.mpr fun p mem => (played_le _).trans_lt (fit p mem).2)
    (fun c at_ => List.forall_mem_map.mpr (short c at_)) (inTime.trans_eq (Nat.zero_add _).symm)
  exact ⟨d', e', run, played_⟩

/-- With the motor on and the write line low. -/
def attached : Datasette :=
  { tape := empty, offset := 0, pulseRemaining := 0, playing := false, motorOn := false, buttonPressed := false
    halfWave := false, readLevel := true, secondHalf := false, fullGap := 0, recording := false
    lastWriteLevel := false, writePulseStart := 0, haveWriteEdge := false, totalCycles := 0, senseLine := none
    motorLine := some false, writeLine := some false }

/-- A wave of one byte and one of four, of which 1200 cycles have passed. -/
theorem recorded_line_comes_back_two :
    ∃ d' e', [(100, true), (300, false), (400, true), (500, false), (70000, true)].foldlM feed
        (startRecord attached).2 = some d' ∧
      playTicks (mount attached [] (saveRecording (stopRecord d').tape)).2 [600, 600] =
        some (e', edges 0 1200 [696, 70500]) := by
  have two : waves none false [(100, true), (300, false), (400, true), (500, false), (70000, true)] =
      [700, 70500] := by decide
  have back := recorded_line_comes_back (d := attached) (e := attached) rfl rfl rfl
    [(100, true), (300, false), (400, true), (500, false), (70000, true)]
  rw [two] at back
  exact back (by simp) (by simp [fullWave, length_pulseBytes, isShort]) rfl rfl rfl [] [600, 600] (by simp)
    (by simp [played, isShort]) (by simp [played, isShort])

end Mmemu.Guarantees.TapeRoundTrip
