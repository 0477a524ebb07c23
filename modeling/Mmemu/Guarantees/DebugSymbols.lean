import Mathlib.Data.List.Basic
import Mmemu.Library.WordBytes
import Mmemu.Source.O45SymbolParser

/-!
# The format of .o45 debug symbols

The parser takes what its readers leave off the front of the data. They return zero where the data
end, which goes unnoticed in two places: a single byte is no procedure count, and the last offset may
lack its bytes when the terminator stands in their place.
-/
namespace Mmemu.Guarantees.DebugSymbols
open Mmemu.Library.LittleEndian (bytes_append)
open Mmemu.Source.O45SymbolParser

/-! ## The format -/

structure Parameter where
  name : Name
  offset : BitVec 16
  deriving DecidableEq

structure Procedure where
  name : Name
  params : List Parameter
  deriving DecidableEq

def word (w : BitVec 16) : List Byte := [w.setWidth 8, w.extractLsb' 8 8]

def Parameter.encode (p : Parameter) : List Byte := p.name ++ 0 :: word p.offset

def Procedure.encode (f : Procedure) : List Byte :=
  f.name ++ 0 :: BitVec.ofNat 8 f.params.length :: (f.params.flatMap Parameter.encode ++ [0xFF])

/-- A name that a zero can end. -/
def Clean (name : Name) : Prop := ∀ c ∈ name, c ≠ 0

structure Procedure.WellFormed (f : Procedure) : Prop where
  name : Clean f.name
  params : ∀ p ∈ f.params, Clean p.name
  count : f.params.length < 2 ^ 8

/-- The data start with the encoding of these procedures. -/
structure Format (data : List Byte) (fs : List Procedure) : Prop where
  procedures : ∀ f ∈ fs, f.WellFormed
  count : fs.length < 2 ^ 16
  encoded : word (BitVec.ofNat 16 fs.length) ++ fs.flatMap Procedure.encode <+: data

/-- The variables of a function: the parameters of the last procedure of that name. -/
def paramsOf (fs : List Procedure) (name : Name) : Option (List VariableSymbol) :=
  (fs.reverse.find? (·.name = name)).map fun f => f.params.map fun p => parameter f.name p.name p.offset

/-- The parser accepts exactly its format. -/
structure Exact (data : List Byte) : Prop where
  parse : ∃ out, parse data = some out ∧ (out.1 = true ↔ ∃ fs, Format data fs) ∧
    ∀ fs, Format data fs → ∀ name, out.2.lookup name = paramsOf fs name
  populateTable : ∀ table, ∃ out, populateTable data table = some out ∧ (out.1 = false → out.2 = table)

/-- The last procedure's encoding without its last offset. -/
def cutShort (name : Name) (params : List Parameter) (last : Name) : List Byte :=
  name ++ 0 :: BitVec.ofNat 8 (params.length + 1) :: (params.flatMap Parameter.encode ++ (last ++ [0, 0xFF]))

/-- A single byte, or an encoding whose last offset is missing. -/
def Cut (data : List Byte) : Prop :=
  data.length = 1 ∨ ∃ (fs : List Procedure) (name : Name) (params : List Parameter) (last : Name),
    (∀ f ∈ fs, f.WellFormed) ∧ fs.length + 1 < 2 ^ 16 ∧
    Clean name ∧ (∀ p ∈ params, Clean p.name) ∧ Clean last ∧ params.length + 1 < 2 ^ 8 ∧
    data = word (BitVec.ofNat 16 (fs.length + 1)) ++ (fs.flatMap Procedure.encode ++ cutShort name params last)

/-! ## What the readers take off the front -/

def takeName : List Byte → Option (Name × List Byte)
  | [] => none
  | c :: rest => if c = 0 then some ([], rest) else (takeName rest).map fun p => (c :: p.1, p.2)

def takeWord : List Byte → BitVec 16 × List Byte
  | lo :: hi :: rest => (hi ++ lo, rest)
  | rest => (0, rest)

def takeByte : List Byte → Byte × List Byte
  | b :: rest => (b, rest)
  | [] => (0, [])

def takeParams : ℕ → List Byte → Option (List Parameter × List Byte)
  | 0, xs => some ([], xs)
  | n + 1, xs => do
    let (name, xs) ← takeName xs
    let (params, rest) ← takeParams n (takeWord xs).2
    return (⟨name, (takeWord xs).1⟩ :: params, rest)

def takeProcs : ℕ → List Byte → Option (List Procedure)
  | 0, _ => some []
  | n + 1, xs => do
    let (name, xs) ← takeName xs
    let (params, xs) ← takeParams (takeByte xs).1.toNat (takeByte xs).2
    if (takeByte xs).1 ≠ 0xFF then none
    else
      let fs ← takeProcs n (takeByte xs).2
      return ⟨name, params⟩ :: fs

/-- The offset of what is left of the data. -/
structure At (data : List Byte) (offset : ℕ) (xs : List Byte) : Prop where
  inside : offset ≤ data.length
  rest : data.drop offset = xs

theorem At.left {data xs : List Byte} {offset : ℕ} (at_ : At data offset xs) : xs.length = data.length - offset := by
  rw [← at_.rest, List.length_drop]

theorem At.next {data xs : List Byte} {offset : ℕ} {c : Byte} (at_ : At data offset (c :: xs)) :
    data[offset]? = some c ∧ At data (offset + 1) xs := by
  have left := at_.left
  rw [List.length_cons] at left
  have inside : offset < data.length := by omega
  have split := List.drop_eq_getElem_cons inside
  rw [at_.rest] at split
  obtain ⟨head, tail⟩ := List.cons.inj split
  exact ⟨by rw [List.getElem?_eq_getElem inside, head], by omega, tail.symm⟩

theorem readChars_some {data xs : List Byte} {offset : ℕ} (acc : Name) {s : Name} {rest : List Byte}
    (at_ : At data offset xs) (found : takeName xs = some (s, rest)) :
    ∃ offset', readChars data xs.length offset acc = some (true, offset', acc ++ s) ∧ At data offset' rest := by
  induction xs generalizing offset acc s with
  | nil => cases found
  | cons c xs ih =>
    obtain ⟨here, next⟩ := at_.next
    rw [takeName] at found
    rw [List.length_cons, readChars, here, Option.bind_eq_bind, Option.bind_some]
    split at found
    next zero =>
      cases found
      rw [if_pos zero, List.append_nil]
      exact ⟨offset + 1, rfl, next⟩
    next other =>
      obtain ⟨p, tail, same⟩ := Option.map_eq_some_iff.mp found
      cases same
      obtain ⟨offset', ran, then_⟩ := ih (acc ++ [c]) next tail
      rw [if_neg other, ran, List.append_assoc]
      exact ⟨offset', rfl, then_⟩

theorem readChars_none {data xs : List Byte} {offset : ℕ} {acc : Name}
    (at_ : At data offset xs) (lost : takeName xs = none) :
    ∃ offset' s, readChars data xs.length offset acc = some (false, offset', s) := by
  induction xs generalizing offset acc with
  | nil => exact ⟨offset, acc, rfl⟩
  | cons c xs ih =>
    obtain ⟨here, next⟩ := at_.next
    rw [takeName] at lost
    rw [List.length_cons, readChars, here, Option.bind_eq_bind, Option.bind_some]
    split at lost
    next zero => cases lost
    next other =>
      rw [if_neg other]
      exact ih next (Option.map_eq_none_iff.mp lost)

theorem readString_some {data xs rest : List Byte} {offset : ℕ} {s : Name}
    (at_ : At data offset xs) (found : takeName xs = some (s, rest)) :
    ∃ offset', readString data offset = some (true, offset', s) ∧ At data offset' rest := by
  rw [readString, ← at_.left]
  exact readChars_some [] at_ found

theorem readString_none {data xs : List Byte} {offset : ℕ} (at_ : At data offset xs) (lost : takeName xs = none) :
    ∃ offset' s, readString data offset = some (false, offset', s) := by
  rw [readString, ← at_.left]
  exact readChars_none at_ lost

theorem readUint16LE_at {data xs : List Byte} {offset : ℕ} (at_ : At data offset xs) :
    ∃ offset', readUint16LE data offset = some ((takeWord xs).1, offset') ∧ At data offset' (takeWord xs).2 := by
  have left := at_.left
  unfold readUint16LE checkBounds
  cases xs with
  | nil =>
    rw [List.length_nil] at left
    rw [if_pos (by simp; omega)]
    exact ⟨offset, rfl, at_⟩
  | cons lo xs =>
    obtain ⟨first, next⟩ := at_.next
    cases xs with
    | nil =>
      rw [List.length_singleton] at left
      rw [if_pos (by simp; omega)]
      exact ⟨offset, rfl, at_⟩
    | cons hi rest =>
      obtain ⟨second, last⟩ := next.next
      rw [List.length_cons, List.length_cons] at left
      rw [if_neg (by simp; omega), first, second]
      exact ⟨offset + 2, rfl, last⟩

theorem readUint8_at {data xs : List Byte} {offset : ℕ} (at_ : At data offset xs) :
    ∃ offset', readUint8 data offset = some ((takeByte xs).1, offset') ∧ At data offset' (takeByte xs).2 := by
  have left := at_.left
  unfold readUint8 checkBounds
  cases xs with
  | nil =>
    rw [List.length_nil] at left
    rw [if_pos (by simp; omega)]
    exact ⟨offset, rfl, at_⟩
  | cons b rest =>
    obtain ⟨here, next⟩ := at_.next
    rw [List.length_cons] at left
    rw [if_neg (by simp; omega), here]
    exact ⟨offset + 1, rfl, next⟩

/-- A parameter of a function, as the parser keeps it. -/
def Parameter.variable_ (funcName : Name) (p : Parameter) : VariableSymbol := parameter funcName p.name p.offset

theorem readParams_some {data xs rest : List Byte} {n offset : ℕ} (funcName : Name) (acc : List VariableSymbol)
    {ps : List Parameter} (at_ : At data offset xs) (found : takeParams n xs = some (ps, rest)) :
    ∃ offset', readParams data funcName n offset acc =
        some (some (acc ++ ps.map (Parameter.variable_ funcName)), offset') ∧ At data offset' rest := by
  induction n generalizing offset xs acc ps with
  | zero =>
    cases found
    exact ⟨offset, by rw [readParams, List.map_nil, List.append_nil], at_⟩
  | succ n ih =>
    obtain ⟨⟨s, ys⟩, named, found⟩ := Option.bind_eq_some_iff.mp found
    obtain ⟨⟨qs, zs⟩, later, same⟩ := Option.bind_eq_some_iff.mp found
    cases same
    obtain ⟨offset', read, at_⟩ := readString_some at_ named
    obtain ⟨offset'', number, at_⟩ := readUint16LE_at at_
    obtain ⟨offset₃, ran, then_⟩ := ih (acc ++ [parameter funcName s (takeWord ys).1]) at_ later
    refine ⟨offset₃, ?_, then_⟩
    have whole : readParams data funcName (n + 1) offset acc =
        readParams data funcName n offset'' (acc ++ [parameter funcName s (takeWord ys).1]) := by
      simp [readParams, read, readInt16LE, number]
    rw [whole, ran, List.append_assoc]
    rfl

theorem readParams_none {data xs : List Byte} {n offset : ℕ} (funcName : Name) (acc : List VariableSymbol)
    (at_ : At data offset xs) (lost : takeParams n xs = none) :
    ∃ offset', readParams data funcName n offset acc = some (none, offset') := by
  induction n generalizing offset xs acc with
  | zero => cases lost
  | succ n ih =>
    cases named : takeName xs with
    | none =>
      obtain ⟨offset', s, read⟩ := readString_none at_ named
      exact ⟨offset', by simp [readParams, read]⟩
    | some p =>
      obtain ⟨offset', read, at_⟩ := readString_some at_ named
      obtain ⟨offset'', number, at_⟩ := readUint16LE_at at_
      have later : takeParams n (takeWord p.2).2 = none := by
        cases params : takeParams n (takeWord p.2).2 with
        | none => rfl
        | some q => simp [takeParams, named, params] at lost
      obtain ⟨offset₃, ran⟩ := ih (acc ++ [parameter funcName p.1 (takeWord p.2).1]) at_ later
      exact ⟨offset₃, by simp [readParams, read, readInt16LE, number, ran]⟩

/-- What the parser makes of its procedures, one after the other. -/
def assignAll (found : Variables) (fs : List Procedure) : Variables :=
  fs.foldl (fun found f => assign f.name (f.params.map (Parameter.variable_ f.name)) found) found

theorem readProcs_some {data xs : List Byte} {n offset : ℕ} (found : Variables) {fs : List Procedure}
    (at_ : At data offset xs) (taken : takeProcs n xs = some fs) :
    readProcs data n offset found = some (true, assignAll found fs) := by
  induction n generalizing offset xs found fs with
  | zero =>
    cases taken
    rfl
  | succ n ih =>
    obtain ⟨⟨s, ys⟩, named, taken⟩ := Option.bind_eq_some_iff.mp taken
    obtain ⟨⟨ps, zs⟩, params, taken⟩ := Option.bind_eq_some_iff.mp taken
    dsimp only at taken
    split at taken
    next => cases taken
    next ended =>
      obtain ⟨gs, later, same⟩ := Option.bind_eq_some_iff.mp taken
      cases same
      obtain ⟨offset', read, at_⟩ := readString_some at_ named
      obtain ⟨offset'', count, at_⟩ := readUint8_at at_
      obtain ⟨offset₃, list, at_⟩ := readParams_some s [] at_ params
      obtain ⟨offset₄, last, at_⟩ := readUint8_at at_
      have ran := ih (assign s (ps.map (Parameter.variable_ s)) found) at_ later
      rw [Decidable.not_not] at ended
      simp [readProcs, read, count, list, last, ended, ran, assignAll]

theorem readProcs_none {data xs : List Byte} {n offset : ℕ} (found : Variables)
    (at_ : At data offset xs) (lost : takeProcs n xs = none) :
    ∃ found', readProcs data n offset found = some (false, found') := by
  induction n generalizing offset xs found with
  | zero => cases lost
  | succ n ih =>
    cases named : takeName xs with
    | none =>
      obtain ⟨offset', s, read⟩ := readString_none at_ named
      exact ⟨found, by simp [readProcs, read]⟩
    | some p =>
      obtain ⟨offset', read, at_⟩ := readString_some at_ named
      obtain ⟨offset'', count, at_⟩ := readUint8_at at_
      cases params : takeParams (takeByte p.2).1.toNat (takeByte p.2).2 with
      | none =>
        obtain ⟨offset₃, list⟩ := readParams_none p.1 [] at_ params
        exact ⟨found, by simp [readProcs, read, count, list]⟩
      | some q =>
        obtain ⟨offset₃, list, at_⟩ := readParams_some p.1 [] at_ params
        obtain ⟨offset₄, last, at_⟩ := readUint8_at at_
        by_cases ended : (takeByte q.2).1 = 0xFF
        · have later : takeProcs n (takeByte q.2).2 = none := by
            cases procs : takeProcs n (takeByte q.2).2 with
            | none => rfl
            | some gs => simp [takeProcs, named, params, ended, procs] at lost
          obtain ⟨found', ran⟩ := ih (assign p.1 (q.1.map (Parameter.variable_ p.1)) found) at_ later
          exact ⟨found', by simp [readProcs, read, count, list, last, ended, ran]⟩
        · refine ⟨found, ?_⟩
          simp only [readProcs, read, count, list, last, Option.bind_eq_bind, Option.bind_some]
          exact if_pos ended

/-! ## What the readers take is an encoding -/

theorem takeName_encoded {s : Name} (clean : Clean s) (rest : List Byte) :
    takeName (s ++ 0 :: rest) = some (s, rest) := by
  induction s with
  | nil => simp [takeName]
  | cons c s ih =>
    have other : c ≠ 0 := clean c (List.mem_cons_self ..)
    rw [List.cons_append, takeName, if_neg other, ih fun d mem => clean d (List.mem_cons_of_mem _ mem)]
    rfl

theorem takeName_eq {xs rest : List Byte} {s : Name} (found : takeName xs = some (s, rest)) :
    Clean s ∧ xs = s ++ 0 :: rest := by
  induction xs generalizing s with
  | nil => cases found
  | cons c xs ih =>
    rw [takeName] at found
    split at found
    next zero =>
      cases found
      exact ⟨fun d mem => absurd mem (List.not_mem_nil), by rw [zero, List.nil_append]⟩
    next other =>
      obtain ⟨p, tail, same⟩ := Option.map_eq_some_iff.mp found
      cases same
      obtain ⟨clean, split_⟩ := ih tail
      refine ⟨fun d mem => ?_, by rw [split_, List.cons_append]⟩
      cases mem with
      | head => exact other
      | tail _ later => exact clean d later

theorem takeWord_word (w : BitVec 16) (rest : List Byte) : takeWord (word w ++ rest) = (w, rest) := by
  change (w.extractLsb' 8 8 ++ w.setWidth 8, rest) = (w, rest)
  rw [bytes_append]

theorem word_join (lo hi : Byte) : word (hi ++ lo) = [lo, hi] := by
  rw [word, BitVec.setWidth_append_eq_right, BitVec.extractLsb'_append_eq_left]

theorem takeParams_next {p : Parameter} (clean : Clean p.name) (n : ℕ) (xs : List Byte) :
    takeParams (n + 1) (p.encode ++ xs) = (takeParams n xs).map fun q => (p :: q.1, q.2) := by
  have shape : p.encode ++ xs = p.name ++ 0 :: (word p.offset ++ xs) := by simp [Parameter.encode]
  rw [shape, takeParams, takeName_encoded clean, Option.bind_eq_bind, Option.bind_some]
  dsimp only
  rw [takeWord_word]
  cases takeParams n xs <;> rfl

theorem takeParams_encoded {ps : List Parameter} (clean : ∀ p ∈ ps, Clean p.name) (rest : List Byte) :
    takeParams ps.length (ps.flatMap Parameter.encode ++ rest) = some (ps, rest) := by
  induction ps with
  | nil => rfl
  | cons p ps ih =>
    rw [List.flatMap_cons, List.append_assoc, List.length_cons, takeParams_next (clean p (List.mem_cons_self ..)),
      ih fun q mem => clean q (List.mem_cons_of_mem _ mem)]
    rfl

/-- With one byte left in place of the last offset, the offset is zero. -/
theorem takeParams_cut {ps : List Parameter} (clean : ∀ p ∈ ps, Clean p.name) {last : Name} (ended : Clean last)
    (b : Byte) : takeParams (ps.length + 1) (ps.flatMap Parameter.encode ++ (last ++ [0, b])) =
      some (ps ++ [⟨last, 0⟩], [b]) := by
  induction ps with
  | nil =>
    rw [List.flatMap_nil, List.nil_append, takeParams, takeName_encoded ended]
    rfl
  | cons p ps ih =>
    rw [List.flatMap_cons, List.append_assoc, List.length_cons, takeParams_next (clean p (List.mem_cons_self ..)),
      ih fun q mem => clean q (List.mem_cons_of_mem _ mem)]
    rfl

/-- From less than two bytes, parameters leave nothing. -/
theorem takeParams_short {n : ℕ} {xs rest : List Byte} {ps : List Parameter} (short : xs.length ≤ 1)
    (found : takeParams (n + 1) xs = some (ps, rest)) : rest = [] := by
  induction n generalizing xs ps with
  | zero =>
    obtain ⟨⟨s, ys⟩, named, found⟩ := Option.bind_eq_some_iff.mp found
    cases found
    have split_ := (takeName_eq named).2
    have ended : ys = [] := by
      apply List.eq_nil_of_length_eq_zero
      have := congrArg List.length split_
      simp at this
      omega
    subst ended
    rfl
  | succ n ih =>
    obtain ⟨⟨s, ys⟩, named, found⟩ := Option.bind_eq_some_iff.mp found
    obtain ⟨⟨qs, zs⟩, later, same⟩ := Option.bind_eq_some_iff.mp found
    cases same
    have split_ := (takeName_eq named).2
    have ended : ys = [] := by
      apply List.eq_nil_of_length_eq_zero
      have := congrArg List.length split_
      simp at this
      omega
    subst ended
    exact @ih [] qs (Nat.zero_le 1) later

/-- Parameters are taken from their encoding, unless the last one's offset is missing. -/
theorem takeParams_eq {n : ℕ} {xs rest : List Byte} {ps : List Parameter}
    (found : takeParams n xs = some (ps, rest)) :
    ps.length = n ∧ (∀ p ∈ ps, Clean p.name) ∧
      (xs = ps.flatMap Parameter.encode ++ rest ∨ rest = [] ∨ ∃ b qs last,
        rest = [b] ∧ ps = qs ++ [⟨last, 0⟩] ∧ xs = qs.flatMap Parameter.encode ++ (last ++ [0, b])) := by
  induction n generalizing xs ps with
  | zero =>
    cases found
    exact ⟨rfl, fun p mem => absurd mem List.not_mem_nil, .inl rfl⟩
  | succ n ih =>
    obtain ⟨⟨s, ys⟩, named, found⟩ := Option.bind_eq_some_iff.mp found
    obtain ⟨⟨qs, zs⟩, later, same⟩ := Option.bind_eq_some_iff.mp found
    cases same
    obtain ⟨clean, split_⟩ := takeName_eq named
    obtain ⟨length, all, shape⟩ := ih later
    refine ⟨by rw [List.length_cons, length], fun p mem => ?_, ?_⟩
    · cases mem with
      | head => exact clean
      | tail _ further => exact all p further
    by_cases whole : 2 ≤ ys.length
    · obtain ⟨lo, hi, tail, rfl⟩ : ∃ lo hi tail, ys = lo :: hi :: tail := by
        cases ys with
        | nil => simp at whole
        | cons lo ys =>
          cases ys with
          | nil => simp at whole
          | cons hi tail => exact ⟨lo, hi, tail, rfl⟩
      have first : xs = Parameter.encode ⟨s, hi ++ lo⟩ ++ tail := by
        rw [split_, Parameter.encode, word_join, List.append_assoc]
        rfl
      obtain exact_ | ended | ⟨b, rs, last, left, params, data⟩ := shape
      · refine .inl ?_
        change tail = _ at exact_
        rw [first, exact_, List.flatMap_cons, List.append_assoc]
        rfl
      · exact .inr (.inl ended)
      · refine .inr (.inr ⟨b, ⟨s, hi ++ lo⟩ :: rs, last, left, ?_, ?_⟩)
        · rw [params]
          rfl
        · change tail = _ at data
          rw [first, data, List.flatMap_cons, List.append_assoc]
    · have none_ : takeWord ys = (0, ys) := by
        cases ys with
        | nil => rfl
        | cons lo ys =>
          cases ys with
          | nil => rfl
          | cons hi tail => simp at whole
      rw [none_] at later
      cases n with
      | succ n => exact .inr (.inl (takeParams_short (by dsimp only; omega) later))
      | zero =>
        cases later
        cases ys with
        | nil => exact .inr (.inl rfl)
        | cons b ys =>
          obtain rfl : ys = [] := List.eq_nil_of_length_eq_zero (by rw [List.length_cons] at whole; omega)
          exact .inr (.inr ⟨b, [], s, rfl, by rw [none_]; rfl, split_⟩)

theorem takeProcs_next {name : Name} (clean : Clean name) {count : Byte} {xs rest : List Byte} {ps : List Parameter}
    (params : takeParams count.toNat xs = some (ps, 0xFF :: rest)) (n : ℕ) :
    takeProcs (n + 1) (name ++ 0 :: count :: xs) = (takeProcs n rest).map (⟨name, ps⟩ :: ·) := by
  rw [takeProcs, takeName_encoded clean, Option.bind_eq_bind, Option.bind_some]
  dsimp only [takeByte]
  rw [params, Option.bind_eq_bind, Option.bind_some]
  change (if (0xFF : Byte) ≠ 0xFF then _ else _) = _
  rw [if_neg fun other => other rfl]
  cases takeProcs n rest <;> rfl

theorem Procedure.WellFormed.takeProcs {f : Procedure} (formed : f.WellFormed) (n : ℕ) (rest : List Byte) :
    takeProcs (n + 1) (f.encode ++ rest) = (takeProcs n rest).map (f :: ·) := by
  have number : (BitVec.ofNat 8 f.params.length).toNat = f.params.length := Nat.mod_eq_of_lt formed.count
  have shape : f.encode ++ rest =
      f.name ++ 0 :: BitVec.ofNat 8 f.params.length :: (f.params.flatMap Parameter.encode ++ 0xFF :: rest) := by
    simp [Procedure.encode]
  rw [shape]
  exact takeProcs_next formed.name (by rw [number]; exact takeParams_encoded formed.params _) n

theorem takeProcs_encoded {fs : List Procedure} (formed : ∀ f ∈ fs, f.WellFormed) (rest : List Byte) :
    takeProcs fs.length (fs.flatMap Procedure.encode ++ rest) = some fs := by
  induction fs with
  | nil => rfl
  | cons f fs ih =>
    rw [List.flatMap_cons, List.append_assoc, List.length_cons, (formed f (List.mem_cons_self ..)).takeProcs,
      ih fun g mem => formed g (List.mem_cons_of_mem _ mem)]
    rfl

theorem takeProcs_cutShort {fs : List Procedure} (formed : ∀ f ∈ fs, f.WellFormed) {name : Name}
    {params : List Parameter} {last : Name} (clean : Clean name) (all : ∀ p ∈ params, Clean p.name)
    (ended : Clean last) (count : params.length + 1 < 2 ^ 8) :
    takeProcs (fs.length + 1) (fs.flatMap Procedure.encode ++ cutShort name params last) =
      some (fs ++ [⟨name, params ++ [⟨last, 0⟩]⟩]) := by
  induction fs with
  | nil =>
    have number : (BitVec.ofNat 8 (params.length + 1)).toNat = params.length + 1 := Nat.mod_eq_of_lt count
    exact takeProcs_next clean (by rw [number]; exact takeParams_cut all ended 0xFF) 0
  | cons f fs ih =>
    rw [List.flatMap_cons, List.append_assoc, List.length_cons, (formed f (List.mem_cons_self ..)).takeProcs,
      ih fun g mem => formed g (List.mem_cons_of_mem _ mem)]
    rfl

/-- Procedures are taken from their encoding, unless the last offset of the last one is missing. -/
theorem takeProcs_eq {n : ℕ} {xs : List Byte} {fs : List Procedure} (found : takeProcs n xs = some fs) :
    fs.length = n ∧ (∀ f ∈ fs, f.WellFormed) ∧
      ((∃ rest, xs = fs.flatMap Procedure.encode ++ rest) ∨ ∃ (gs : List Procedure) (name : Name)
        (params : List Parameter) (last : Name), gs.length + 1 = n ∧ (∀ f ∈ gs, f.WellFormed) ∧ Clean name ∧
          (∀ p ∈ params, Clean p.name) ∧ Clean last ∧ params.length + 1 < 2 ^ 8 ∧
          xs = gs.flatMap Procedure.encode ++ cutShort name params last) := by
  induction n generalizing xs fs with
  | zero =>
    cases found
    exact ⟨rfl, fun f mem => absurd mem List.not_mem_nil, .inl ⟨xs, rfl⟩⟩
  | succ n ih =>
    obtain ⟨⟨s, ys⟩, named, found⟩ := Option.bind_eq_some_iff.mp found
    obtain ⟨⟨ps, zs⟩, params, found⟩ := Option.bind_eq_some_iff.mp found
    dsimp only at params found
    split at found
    next => cases found
    next ended =>
      obtain ⟨gs, later, same⟩ := Option.bind_eq_some_iff.mp found
      cases same
      rw [Decidable.not_not] at ended
      obtain ⟨clean, split_⟩ := takeName_eq named
      cases ys with
      | nil =>
        cases params
        exact absurd ended (by decide)
      | cons count ys =>
        obtain ⟨length, all, shape⟩ := takeParams_eq params
        change ps.length = count.toNat at length
        change ys = _ ∨ _ ∨ _ at shape
        have small : ps.length < 2 ^ 8 := length ▸ count.isLt
        have number : count = BitVec.ofNat 8 ps.length := by rw [length, BitVec.ofNat_toNat, BitVec.setWidth_eq]
        obtain ⟨tail, rfl⟩ : ∃ tail, zs = 0xFF :: tail := by
          cases zs with
          | nil => exact absurd ended (by decide)
          | cons b tail => exact ⟨tail, by rw [show b = 0xFF from ended]⟩
        obtain ⟨lengths, formed, rest⟩ := ih later
        have first : Procedure.WellFormed ⟨s, ps⟩ := ⟨clean, all, small⟩
        refine ⟨by rw [List.length_cons, lengths], ?_, ?_⟩
        · intro f mem
          cases mem with
          | head => exact first
          | tail _ further => exact formed f further
        obtain exact_ | none_ | ⟨b, qs, last, left, whole, data⟩ := shape
        · have front : xs = Procedure.encode ⟨s, ps⟩ ++ tail := by
            rw [split_, number, exact_]
            simp [Procedure.encode]
          obtain ⟨rest, more⟩ | ⟨hs, name, params', last, count', formed', clean', all', ended', few, data⟩ := rest
          · change tail = _ at more
            exact .inl ⟨rest, by rw [front, more, List.flatMap_cons, List.append_assoc]⟩
          · change tail = _ at data
            refine .inr ⟨⟨s, ps⟩ :: hs, name, params', last, by rw [List.length_cons, count'], ?_, clean', all',
              ended', few, by rw [front, data, List.flatMap_cons, List.append_assoc]⟩
            intro f mem
            cases mem with
            | head => exact first
            | tail _ further => exact formed' f further
        · cases none_
        · obtain ⟨rfl, rfl⟩ := List.cons.inj left
          have nothing : gs = [] ∧ n = 0 := by
            cases n with
            | zero => exact ⟨List.eq_nil_of_length_eq_zero lengths, rfl⟩
            | succ n => cases later
          obtain ⟨rfl, rfl⟩ := nothing
          have ended' : Clean last := by
            have mem : (⟨last, 0⟩ : Parameter) ∈ ps := by simp [whole]
            exact all _ mem
          refine .inr ⟨[], s, qs, last, rfl, fun f mem => absurd mem List.not_mem_nil, clean, fun p mem => ?_,
            ended', ?_, ?_⟩
          · exact all p (by rw [whole]; exact List.mem_append_left _ mem)
          · rw [whole, List.length_append] at small
            exact small
          · change ys = _ at data
            rw [split_, number, data, whole, List.length_append]
            rfl

/-! ## What the parser returns -/

theorem lookup_cons (name : Name) (entry : Name × List VariableSymbol) (rest : Variables) :
    List.lookup name (entry :: rest) = if name = entry.1 then some entry.2 else rest.lookup name := by
  rw [List.lookup_cons]
  split
  next yes => rw [if_pos (eq_of_beq yes)]
  next no => rw [if_neg (ne_of_beq_false no)]

theorem lookup_assign (f : Name) (params : List VariableSymbol) (found : Variables) (name : Name) :
    (assign f params found).lookup name = if name = f then some params else found.lookup name := by
  induction found with
  | nil => exact lookup_cons name (f, params) []
  | cons entry rest ih =>
    rw [assign]
    split
    next same =>
      rw [lookup_cons, lookup_cons, ← same]
      split
      next => rfl
      next => rfl
    next other =>
      split
      next => rw [lookup_cons]
      next =>
        rw [lookup_cons, lookup_cons, ih]
        by_cases is_f : name = f
        · rw [is_f, if_pos rfl, if_pos rfl, if_neg other]
        · rw [if_neg is_f, if_neg is_f]

theorem paramsOf_cons (f : Procedure) (fs : List Procedure) (name : Name) : paramsOf (f :: fs) name =
    (paramsOf fs name).or (if name = f.name then some (f.params.map (Parameter.variable_ f.name)) else none) := by
  rw [paramsOf, List.reverse_cons, List.find?_append, List.find?_singleton, paramsOf]
  cases fs.reverse.find? (·.name = name) with
  | some g => rfl
  | none =>
    by_cases same : name = f.name
    · rw [if_pos same, if_pos (by simp [same])]
      rfl
    · rw [if_neg same, if_neg (by simpa using fun eq => same eq.symm)]
      rfl

theorem lookup_assignAll (found : Variables) (fs : List Procedure) (name : Name) :
    (assignAll found fs).lookup name = (paramsOf fs name).or (found.lookup name) := by
  induction fs generalizing found with
  | nil => rfl
  | cons f fs ih =>
    rw [assignAll, List.foldl_cons]
    change (assignAll _ fs).lookup name = _
    rw [ih, lookup_assign, paramsOf_cons, Option.or_assoc]
    split <;> rfl

theorem parse_some {data : List Byte} (some_ : data ≠ []) {fs : List Procedure}
    (found : takeProcs (takeWord data).1.toNat (takeWord data).2 = some fs) :
    parse data = some (true, assignAll [] fs) := by
  have whole : At data 0 data := ⟨Nat.zero_le _, List.drop_zero⟩
  obtain ⟨offset, count, at_⟩ := readUint16LE_at whole
  rw [parse, if_neg (by simpa using some_), count, Option.bind_eq_bind, Option.bind_some]
  exact readProcs_some [] at_ found

theorem parse_none {data : List Byte} (some_ : data ≠ [])
    (lost : takeProcs (takeWord data).1.toNat (takeWord data).2 = none) :
    ∃ found, parse data = some (false, found) := by
  have whole : At data 0 data := ⟨Nat.zero_le _, List.drop_zero⟩
  obtain ⟨offset, count, at_⟩ := readUint16LE_at whole
  rw [parse, if_neg (by simpa using some_), count, Option.bind_eq_bind, Option.bind_some]
  exact readProcs_none [] at_ lost

/-- Two bytes hold the number of the procedures that follow. -/
theorem takeProcs_counted {n : ℕ} (small : n < 2 ^ 16) (xs : List Byte) :
    takeProcs (takeWord (word (BitVec.ofNat 16 n) ++ xs)).1.toNat (takeWord (word (BitVec.ofNat 16 n) ++ xs)).2 =
      takeProcs n xs := by
  rw [takeWord_word]
  change takeProcs (BitVec.ofNat 16 n).toNat xs = _
  rw [BitVec.toNat_ofNat, Nat.mod_eq_of_lt small]

theorem Format.takes {data : List Byte} {fs : List Procedure} (format : Format data fs) :
    takeProcs (takeWord data).1.toNat (takeWord data).2 = some fs := by
  obtain ⟨rest, rfl⟩ := format.encoded
  rw [List.append_assoc, takeProcs_counted format.count]
  exact takeProcs_encoded format.procedures rest

theorem Format.two_le {data : List Byte} {fs : List Procedure} (format : Format data fs) : 2 ≤ data.length := by
  have le := format.encoded.length_le
  rw [List.length_append] at le
  have two : (word (BitVec.ofNat 16 fs.length)).length = 2 := rfl
  omega

theorem populateTable_of_parse {data : List Byte} {parsed : Bool} {found : Variables}
    (ran : parse data = some (parsed, found)) (table : VariableSymbolTable) :
    ∃ out, populateTable data table = some out ∧ (out.1 = false → out.2 = table) := by
  rw [populateTable, ran, Option.bind_eq_bind, Option.bind_some]
  cases parsed with
  | false => exact ⟨(false, table), rfl, fun _ => rfl⟩
  | true => exact ⟨_, rfl, fun lost => absurd lost Bool.true_eq_false.mp⟩

theorem length_cutShort {fs : List Procedure} {name : Name} {params : List Parameter} {last : Name} :
    ((fs ++ [⟨name, params ++ [⟨last, 0⟩]⟩] : List Procedure).flatMap Procedure.encode).length =
      (fs.flatMap Procedure.encode ++ cutShort name params last).length + 2 := by
  have two : (word 0).length = 2 := rfl
  simp only [List.flatMap_append, List.flatMap_singleton, Procedure.encode, Parameter.encode, cutShort,
    List.length_append, List.length_cons, List.length_nil, two]
  omega

theorem Cut.inexact {data : List Byte} (cut : Cut data) : ¬Exact data := by
  intro exact_
  obtain ⟨out, ran, iff_, -⟩ := exact_.parse
  have two (n : ℕ) (xs : List Byte) : (word (BitVec.ofNat 16 n) ++ xs).length = xs.length + 2 :=
    (List.length_append ..).trans (Nat.add_comm 2 _)
  obtain single | ⟨fs, name, params, last, formed, few, clean, all, ended, count, whole⟩ := cut
  · obtain ⟨b, rfl⟩ := List.length_eq_one_iff.mp single
    have taken : takeProcs (takeWord [b]).1.toNat (takeWord [b]).2 = some [] := rfl
    have parsed := parse_some (List.cons_ne_nil b []) taken
    rw [ran] at parsed
    obtain ⟨fs, format⟩ := iff_.mp (congrArg Prod.fst (Option.some.inj parsed))
    exact absurd format.two_le (by simp)
  · have taken := takeProcs_cutShort formed clean all ended count
    rw [← takeProcs_counted few, ← whole] at taken
    have parsed := parse_some (by rw [whole]; exact List.cons_ne_nil _ _) taken
    rw [ran] at parsed
    obtain ⟨gs, format⟩ := iff_.mp (congrArg Prod.fst (Option.some.inj parsed))
    have same : gs = fs ++ [⟨name, params ++ [⟨last, 0⟩]⟩] := Option.some.inj (format.takes.symm.trans taken)
    have le := format.encoded.length_le
    rw [whole, two, two, same, length_cutShort] at le
    omega

/-- What is taken for procedures is the data's format. -/
theorem format_of_takes {data : List Byte} (uncut : ¬Cut data) (some_ : data ≠ []) {fs : List Procedure}
    (taken : takeProcs (takeWord data).1.toNat (takeWord data).2 = some fs) : Format data fs := by
  obtain ⟨lo, hi, tail, rfl⟩ : ∃ lo hi tail, data = lo :: hi :: tail := by
    cases data with
    | nil => exact absurd rfl some_
    | cons lo rest =>
      cases rest with
      | nil => exact absurd (.inl rfl) uncut
      | cons hi tail => exact ⟨lo, hi, tail, rfl⟩
  change takeProcs (hi ++ lo).toNat tail = some fs at taken
  obtain ⟨length, formed, shape⟩ := takeProcs_eq taken
  have small : fs.length < 2 ^ 16 := length ▸ (hi ++ lo).isLt
  have counted : word (BitVec.ofNat 16 fs.length) = [lo, hi] := by
    rw [length, BitVec.ofNat_toNat, BitVec.setWidth_eq, word_join]
  obtain ⟨rest, data⟩ | ⟨gs, name, params, last, count, formed', clean, all, ended, few, data⟩ := shape
  · exact ⟨formed, small, rest, by rw [counted, data]; rfl⟩
  · refine absurd (.inr ⟨gs, name, params, last, formed', ?_, clean, all, ended, few, ?_⟩) uncut
    · rw [count, ← length]
      exact small
    · rw [count, ← length, counted, data]
      rfl

/-- The parser accepts exactly its format, and returns the parameters it describes, unless the data are
a single byte or end in an encoding whose last offset is missing. -/
theorem parse_exact_iff (data : List Byte) : Exact data ↔ ¬Cut data := by
  refine ⟨fun exact_ cut => cut.inexact exact_, fun uncut => ?_⟩
  have refused {found : Variables} (ran : parse data = some (false, found)) (lost : ∀ fs, ¬Format data fs) :
      Exact data := by
    refine ⟨⟨_, ran, ⟨fun yes => absurd yes Bool.false_ne_true, fun format => ?_⟩, fun fs format => ?_⟩,
      populateTable_of_parse ran⟩
    · obtain ⟨fs, format⟩ := format
      exact absurd format (lost fs)
    · exact absurd format (lost fs)
  by_cases none_ : data = []
  · refine refused (by rw [none_]; rfl) fun fs format => ?_
    have le := format.two_le
    rw [none_] at le
    exact absurd le (by decide)
  cases taken : takeProcs (takeWord data).1.toNat (takeWord data).2 with
  | none =>
    obtain ⟨found, ran⟩ := parse_none none_ taken
    refine refused ran fun fs format => ?_
    rw [format.takes] at taken
    cases taken
  | some fs =>
    have ran := parse_some none_ taken
    refine ⟨⟨_, ran, ⟨fun _ => ⟨fs, format_of_takes uncut none_ taken⟩, fun _ => rfl⟩, fun gs format name => ?_⟩,
      populateTable_of_parse ran⟩
    obtain rfl : gs = fs := Option.some.inj (format.takes.symm.trans taken)
    rw [lookup_assignAll]
    exact Option.or_none

/-- One procedure with one parameter, whose offset is missing. -/
def lacking : List Byte := [0x01, 0x00, 0x66, 0x00, 0x01, 0x70, 0x00, 0xFF]

theorem lacking_accepted : (parse lacking).map Prod.fst = some true ∧ ¬Exact lacking := by
  refine ⟨by decide, Cut.inexact (.inr ⟨[], [0x66], [], [0x70], ?_, by decide, ?_, ?_, ?_, by decide, by decide⟩)⟩
  · exact fun f mem => absurd mem List.not_mem_nil
  · unfold Clean
    decide
  · exact fun p mem => absurd mem List.not_mem_nil
  · unfold Clean
    decide

end Mmemu.Guarantees.DebugSymbols
