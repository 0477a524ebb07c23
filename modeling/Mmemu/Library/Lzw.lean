import Mmemu.Library.BitStream
import Mathlib.Data.Nat.Size
import Mathlib.Data.List.Nodup

/-!
# LZW with variable-width codes

Symbols are their own codes; a code that clears the table and one that ends the stream
follow them, then those of the table's strings. A reader's table is one string behind that
of the writer: the symbol that completes the string comes with the next code.
-/
namespace Mmemu.Library.Lzw

open BitStream

abbrev Table := List (List ℕ)

structure Format where
  /-- The number of symbols. -/
  symbols : ℕ
  firstWidth : ℕ
  lastWidth : ℕ

namespace Format

variable (f : Format)

def clear : ℕ := f.symbols
def stop : ℕ := f.symbols + 1
def base : ℕ := f.symbols + 2

/-- As many strings as the widest codes can name. -/
def room : ℕ := 2 ^ f.lastWidth - f.base

end Format

variable {f : Format}

/-! ## Reading -/

structure Reader where
  table : Table
  width : ℕ
  prev : Option (List ℕ)

def Reader.start (f : Format) : Reader := ⟨[], f.firstWidth, none⟩

/-- The string of a code. -/
def string (f : Format) (table : Table) (code : ℕ) : Option (List ℕ) :=
  if code < f.symbols then some [code] else if code < f.base then none else table[code - f.base]?

/-- A string for the table. Codes grow wider when the next one would not fit. -/
def Reader.enter (f : Format) (r : Reader) (s : List ℕ) : Reader :=
  if r.table.length < f.room then
    { r with
      table := r.table ++ [s]
      width := if f.base + (r.table.length + 1) = 2 ^ r.width ∧ r.width < f.lastWidth then r.width + 1
        else r.width }
  else r

/-- The string of a code behind the one before; it may be the string that the code completes. -/
def Reader.receive (f : Format) (r : Reader) (code : ℕ) : Option (List ℕ × Reader) :=
  match r.prev with
  | none => if code < f.symbols then some ([code], { r with prev := some [code] }) else none
  | some p =>
    let s := if code = f.base + r.table.length ∧ r.table.length < f.room then some (p ++ p.take 1)
      else string f r.table code
    s.map fun s => (s, { r.enter f (p ++ s.take 1) with prev := some s })

/-- The symbols of a stream up to its end code; `none` when there is no such code, or another
cannot be read. -/
def decode (f : Format) (r : Reader) (bits : List Bool) : Option (List ℕ) :=
  if short : r.width = 0 ∨ bits.length < r.width then none
  else
    let code := ofBits (bits.take r.width)
    let rest := bits.drop r.width
    have : rest.length < bits.length := by
      rw [List.length_drop]
      omega
    if code = f.clear then decode f (.start f) rest
    else if code = f.stop then some []
    else
      match r.receive f code with
      | none => none
      | some (s, next) => (decode f next rest).map (s ++ ·)
termination_by bits.length
decreasing_by all_goals exact this

theorem decode_code (f : Format) (r : Reader) {code : ℕ} (fits : code < 2 ^ r.width)
    (rest : List Bool) (pos : 0 < r.width) :
    decode f r (bitsOf r.width code ++ rest) =
      if code = f.clear then decode f (.start f) rest
      else if code = f.stop then some []
      else (r.receive f code).bind fun next => (decode f next.2 rest).map (next.1 ++ ·) := by
  have read : ofBits ((bitsOf r.width code ++ rest).take r.width) = code := by
    rw [List.take_left' (length_bitsOf ..), ofBits_bitsOf_of_lt fits]
  have left : (bitsOf r.width code ++ rest).drop r.width = rest := List.drop_left' (length_bitsOf ..)
  have long : ¬(r.width = 0 ∨ (bitsOf r.width code ++ rest).length < r.width) := by
    rw [List.length_append, length_bitsOf]
    omega
  rw [decode, dif_neg long]
  simp only [read, left]
  cases r.receive f code <;> rfl

theorem decode_short (f : Format) (r : Reader) {bits : List Bool} (short : bits.length < r.width) :
    decode f r bits = none := by
  rw [decode, dif_pos (.inr short)]

/-- Bits that take a reader from one state to another, and the symbols that they stand for. -/
inductive Reads (f : Format) (r : Reader) : List Bool → List ℕ → Reader → Prop
  | start : Reads f r [] [] r
  | clear {bits symbols next} (before : Reads f r bits symbols next) (pos : 0 < next.width)
      (fits : f.clear < 2 ^ next.width) :
      Reads f r (bits ++ bitsOf next.width f.clear) symbols (.start f)
  | code {bits symbols next c s last} (before : Reads f r bits symbols next) (pos : 0 < next.width)
      (fits : c < 2 ^ next.width) (other : c ≠ f.clear ∧ c ≠ f.stop)
      (received : next.receive f c = some (s, last)) :
      Reads f r (bits ++ bitsOf next.width c) (symbols ++ s) last

theorem Reads.decode {r last : Reader} {bits : List Bool} {symbols : List ℕ}
    (h : Reads f r bits symbols last) (rest : List Bool) :
    decode f r (bits ++ rest) = (decode f last rest).map (symbols ++ ·) := by
  induction h generalizing rest with
  | start => simp
  | clear before pos fits ih =>
    rw [List.append_assoc, ih, decode_code f _ fits rest pos, if_pos rfl]
  | code before pos fits other received ih =>
    rw [List.append_assoc, ih, decode_code f _ fits rest pos, if_neg other.1, if_neg other.2, received,
      Option.bind_some, Option.map_map]
    congr 1
    funext s
    exact (List.append_assoc ..).symm

/-! ## Writing -/

/-- Strings that have a code: single symbols and those of the table. -/
def Known (f : Format) (table : Table) (w : List ℕ) : Prop := (∃ a < f.symbols, w = [a]) ∨ w ∈ table

/-- The code of a string. -/
def codeOf (f : Format) (table : Table) : List ℕ → ℕ
  | [a] => a
  | w => f.base + table.idxOf w

/-- A table as it grows: each string is another one and a symbol. -/
structure Grown (f : Format) (table : Table) : Prop where
  nodup : table.Nodup
  split : ∀ v ∈ table, ∃ w a, v = w ++ [a] ∧ a < f.symbols ∧ Known f table w

theorem grown_nil : Grown f [] := ⟨List.nodup_nil, fun _ absent => absurd absent List.not_mem_nil⟩

section Strings

variable {table : Table} {w : List ℕ}

theorem Known.ne_nil (grown : Grown f table) (known : Known f table w) : w ≠ [] := by
  rcases known with ⟨a, -, rfl⟩ | inside
  · exact List.cons_ne_nil a []
  · obtain ⟨v, a, rfl, -⟩ := grown.split w inside
    simp

theorem Known.append (known : Known f table w) (v : List ℕ) : Known f (table ++ [v]) w :=
  known.imp_right (List.mem_append_left [v])

theorem Grown.long (grown : Grown f table) (w : List ℕ) (inside : w ∈ table) : 2 ≤ w.length := by
  obtain ⟨v, a, rfl, -, known⟩ := grown.split w inside
  have := List.length_pos_iff.mpr (known.ne_nil grown)
  rw [List.length_append, List.length_singleton]
  omega

theorem codeOf_symbol (a : ℕ) : codeOf f table [a] = a := rfl

theorem codeOf_of_two_le (long : 2 ≤ w.length) : codeOf f table w = f.base + table.idxOf w := by
  match w, long with
  | _ :: _ :: _, _ => rfl

theorem codeOf_lt (long : ∀ v ∈ table, 2 ≤ v.length) (known : Known f table w) :
    codeOf f table w < f.base + table.length := by
  rcases known with ⟨a, small, rfl⟩ | inside
  · rw [codeOf_symbol]
    unfold Format.base
    omega
  · rw [codeOf_of_two_le (long _ inside)]
    have := List.idxOf_lt_length_of_mem inside
    omega

/-- No string has one of the two special codes. -/
theorem codeOf_ne (long : ∀ v ∈ table, 2 ≤ v.length) (known : Known f table w) :
    codeOf f table w ≠ f.clear ∧ codeOf f table w ≠ f.stop := by
  rcases known with ⟨a, small, rfl⟩ | inside
  · rw [codeOf_symbol]
    unfold Format.clear Format.stop
    omega
  · rw [codeOf_of_two_le (long _ inside)]
    unfold Format.clear Format.stop Format.base
    omega

theorem codeOf_inj (long : ∀ v ∈ table, 2 ≤ v.length) (known : Known f table w) {v : List ℕ}
    (known' : Known f table v) (same : codeOf f table w = codeOf f table v) : w = v := by
  rcases known with ⟨a, small, rfl⟩ | inside <;> rcases known' with ⟨b, small', rfl⟩ | inside'
  · exact congrArg (fun a => [a]) same
  · rw [codeOf_symbol, codeOf_of_two_le (long _ inside')] at same
    unfold Format.base at same
    omega
  · rw [codeOf_symbol, codeOf_of_two_le (long _ inside)] at same
    unfold Format.base at same
    omega
  · rw [codeOf_of_two_le (long _ inside),
      codeOf_of_two_le (long _ inside'), Nat.add_left_cancel_iff] at same
    exact (List.idxOf_inj inside).mp same

/-- A new string for the table. -/
theorem Grown.append (grown : Grown f table) (known : Known f table w) {a : ℕ}
    (small : a < f.symbols) (new : w ++ [a] ∉ table) : Grown f (table ++ [w ++ [a]]) where
  nodup := by
    rw [← List.concat_eq_append]
    exact grown.nodup.concat new
  split v inside := by
    rcases List.mem_append.mp inside with old | last
    · obtain ⟨u, b, eq, below, known'⟩ := grown.split v old
      exact ⟨u, b, eq, below, known'.append _⟩
    · exact ⟨w, a, List.mem_singleton.mp last, small, known.append _⟩

theorem codeOf_append (known : Known f table w) (v : List ℕ) :
    codeOf f (table ++ [v]) w = codeOf f table w := by
  rcases known with ⟨a, -, rfl⟩ | inside
  · rfl
  · match w, inside with
    | [], inside => exact congrArg (f.base + ·) (List.idxOf_append_of_mem inside)
    | [_], _ => rfl
    | _ :: _ :: _, inside => exact congrArg (f.base + ·) (List.idxOf_append_of_mem inside)

theorem codeOf_last (long : 2 ≤ w.length) (new : w ∉ table) :
    codeOf f (table ++ [w]) w = f.base + table.length := by
  rw [codeOf_of_two_le long, List.idxOf_append_of_notMem new]
  simp

theorem string_codeOf (long : ∀ v ∈ table, 2 ≤ v.length) (known : Known f table w) :
    string f table (codeOf f table w) = some w := by
  rcases known with ⟨a, small, rfl⟩ | inside
  · rw [codeOf_symbol, string, if_pos small]
  · have place : f.base + table.idxOf w - f.base = table.idxOf w := Nat.add_sub_cancel_left ..
    rw [codeOf_of_two_le (long _ inside), string, if_neg, if_neg, place]
    · exact List.getElem?_eq_some_iff.mpr ⟨List.idxOf_lt_length_of_mem inside, List.getElem_idxOf _⟩
    · exact Nat.not_lt.mpr (Nat.le_add_right ..)
    · unfold Format.base
      omega

end Strings

/-! ## Reading behind a writer -/

/-- A reader of a writer that has the string `w` yet to write. -/
inductive Behind (f : Format) (table : Table) (w : List ℕ) (r : Reader) : Prop
  | cleared (empty : table = []) (same : r.table = []) (fresh : r.prev = none)
  | following (p : List ℕ) (before : r.prev = some p) (begun : p ≠ [])
      (last : table = r.table ++ [p ++ w.take 1])

/-- The code of the string brings the reader's table up to the writer's. -/
theorem Behind.receive {table : Table} {w : List ℕ} {r : Reader} (behind : Behind f table w r)
    (grown : Grown f table) (known : Known f table w) (fits : table.length ≤ f.room) :
    ∃ next, r.receive f (codeOf f table w) = some (w, next) ∧ next.table = table ∧ next.prev = some w ∧
      next.width = if table ≠ [] ∧ f.base + table.length = 2 ^ r.width ∧ r.width < f.lastWidth then
        r.width + 1 else r.width := by
  cases behind with
  | cleared empty same fresh =>
    subst empty
    rcases known with ⟨a, small, rfl⟩ | inside
    · refine ⟨{ r with prev := some [a] }, ?_, same, rfl, ?_⟩
      · rw [codeOf_symbol, Reader.receive, fresh]
        exact if_pos small
      · rw [if_neg (fun h => h.1 rfl)]
    · exact absurd inside List.not_mem_nil
  | following p before begun last =>
    have length : table.length = r.table.length + 1 := by rw [last, List.length_append, List.length_singleton]
    have room : r.table.length < f.room := by omega
    have meaning : (if codeOf f table w = f.base + r.table.length ∧ r.table.length < f.room then
        some (p ++ p.take 1) else string f r.table (codeOf f table w)) = some w := by
      by_cases completed : w = p ++ w.take 1
      · have new : w ∉ r.table := by
          intro old
          have nodup := grown.nodup
          rw [last, ← completed] at nodup
          exact (List.nodup_append.mp nodup).2.2 w old w (List.mem_singleton_self w) rfl
        have long : 2 ≤ w.length := grown.long w (by rw [last, ← completed]; simp)
        have code : codeOf f table w = f.base + r.table.length := by
          rw [last, ← completed]
          exact codeOf_last long new
        have first : w.take 1 = p.take 1 := by
          rw [completed, List.take_append_of_le_length]
          exact List.length_pos_iff.mpr begun
        rw [if_pos ⟨code, room⟩, ← first, ← completed]
      · have known' : Known f r.table w := by
          rcases known with symbol | inside
          · exact .inl symbol
          · rw [last] at inside
            rcases List.mem_append.mp inside with old | new
            · exact .inr old
            · exact absurd (List.mem_singleton.mp new) completed
        have long : ∀ v ∈ r.table, 2 ≤ v.length := fun v old =>
          grown.long v (by rw [last]; exact List.mem_append_left _ old)
        have code : codeOf f table w = codeOf f r.table w := by
          rw [last]
          exact codeOf_append known' _
        have below := codeOf_lt long known'
        rw [code, if_neg (by omega)]
        exact string_codeOf long known'
    refine ⟨{ r.enter f (p ++ w.take 1) with prev := some w }, ?_, ?_, rfl, ?_⟩
    · rw [Reader.receive, before]
      dsimp only
      rw [meaning, Option.map_some]
    · rw [Reader.enter, if_pos room]
      exact last.symm
    · have nonempty : table ≠ [] := by
        rw [last]
        simp
      rw [Reader.enter, if_pos room, length]
      simp only [nonempty, ne_eq, not_false_eq_true, true_and]

/-! ## Cutting a text into strings -/

/-- The strings that a text is cut into, each as long as the table knows it: `w` is the one
being read. A full table is cleared. -/
def cut (room : ℕ) (table : Table) (w : List ℕ) : List ℕ → List (List ℕ)
  | [] => [w]
  | a :: rest =>
    if w ++ [a] ∈ table then cut room table (w ++ [a]) rest
    else w :: cut room (if table.length = room then [] else table ++ [w ++ [a]]) [a] rest

theorem cut_cons (room : ℕ) (table : Table) (w : List ℕ) (a : ℕ) (rest : List ℕ) :
    cut room table w (a :: rest) =
      if w ++ [a] ∈ table then cut room table (w ++ [a]) rest
      else w :: cut room (if table.length = room then [] else table ++ [w ++ [a]]) [a] rest := rfl

/-- The strings of a text, from an empty table. -/
def strings (room : ℕ) : List ℕ → List (List ℕ)
  | [] => []
  | a :: rest => cut room [] [a] rest

end Mmemu.Library.Lzw
