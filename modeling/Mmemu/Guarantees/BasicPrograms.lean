import Mmemu.Library.Chains
import Mmemu.Source.BasicTokenizer

/-!
# Tokenised programs

A text is accepted if each of its lines is blank, a comment or a program line, and the numbers
ascend. The program it becomes is a chain of these lines as long as it ends in memory. Nothing
refuses a longer one.
-/
namespace Mmemu.Guarantees.BasicPrograms
open Mmemu.Library.LineChain Mmemu.Source.BasicTokenizer
open Mmemu.Source.Assembler6502 (Text isBlank)

/-! ## Lines of a text by themselves -/

def trimmed (line : Text) : Text := (withoutReturn line).dropWhile isBlank

/-- A line that is not of the program. -/
def Remark (line : Text) : Prop := ∀ c ∈ (trimmed line).head?, c = ';' ∨ c = '#'

/-- Number and bytes of a program line, if it is one. -/
def programLine (table : Tokens) (line : Text) : Option Line :=
  if (trimmed line).head?.any Char.isDigit then
    let (lineNo, rest) := lineNumber 0 (trimmed line)
    match crunch table 0 ⟨false, false, false⟩ (rest.dropWhile isBlank) with
    | .error _ => none
    | .ok out => if lineNo ≤ 63999 ∧ out.length ≤ 250 then some (BitVec.ofNat 16 lineNo, out) else none
  else none

def programLines (table : Tokens) (lines : List Text) : List Line :=
  lines.filterMap (programLine table)

/-- In strictly ascending order from a number on. -/
def Ascending (last : ℤ) (lines : List Line) : Prop :=
  (∀ l ∈ lines, last < l.1.toNat) ∧ lines.Pairwise fun l l' => l.1 < l'.1

/-- Every line is a remark or a program line, and these ascend. -/
def Acceptable (table : Tokens) (last : ℤ) (lines : List Text) : Prop :=
  (∀ line ∈ lines, Remark line ∨ (programLine table line).isSome) ∧
    Ascending last (programLines table lines)

theorem ascending_cons {last : ℤ} {l : Line} {rest : List Line} :
    Ascending last (l :: rest) ↔ last < l.1.toNat ∧ Ascending l.1.toNat rest := by
  unfold Ascending
  rw [List.forall_mem_cons, List.pairwise_cons]
  constructor
  · rintro ⟨⟨first, -⟩, above, pairs⟩
    exact ⟨first, fun l' mem => by exact_mod_cast above l' mem, pairs⟩
  · rintro ⟨first, above, pairs⟩
    have above' : ∀ l' ∈ rest, l.1 < l'.1 := fun l' mem => by exact_mod_cast above l' mem
    exact ⟨⟨first, fun l' mem => first.trans (above l' mem)⟩, above', pairs⟩

theorem programLine_eq {table : Tokens} {line : Text} {c : Char} {rest : Text}
    (front : trimmed line = c :: rest) (digit : c.isDigit) {l : Line} :
    programLine table line = some l ↔
      ∃ out, crunch table 0 ⟨false, false, false⟩
          ((lineNumber 0 (c :: rest)).2.dropWhile isBlank) = .ok out ∧
        (lineNumber 0 (c :: rest)).1 ≤ 63999 ∧ out.length ≤ 250 ∧
          l = (BitVec.ofNat 16 (lineNumber 0 (c :: rest)).1, out) := by
  unfold programLine
  rw [front, List.head?_cons, Option.any_some, if_pos digit]
  dsimp only
  cases crunch table 0 ⟨false, false, false⟩ ((lineNumber 0 (c :: rest)).2.dropWhile isBlank) with
  | error msg => simp
  | ok out =>
    simp only [Except.ok.injEq, exists_eq_left', Option.ite_none_right_eq_some, Option.some.injEq,
      and_assoc, eq_comm (a := l)]

/-! ## Zeros in a line -/

theorem lineNumber_suffix (lineNo : ℕ) (line : Text) : (lineNumber lineNo line).2 <:+ line := by
  induction line generalizing lineNo with
  | nil => exact List.suffix_refl _
  | cons c rest ih =>
    unfold lineNumber
    split
    · dsimp only
      split
      · exact List.suffix_refl _
      · exact (ih _).trans (List.suffix_cons c rest)
    · exact List.suffix_refl _

theorem keyword_mem {table : Tokens} {s : Text} {n : ℕ} {tok : List Byte}
    (found : keyword table s = some (n, tok)) : ∃ name, (name, tok) ∈ table := by
  have fold : ∀ (entries : Tokens) (best : Option (ℕ × List Byte)),
      entries.foldl (fun best entry =>
        if (best.map Prod.fst).getD 0 < entry.1.toList.length && iequalsPrefix s entry.1.toList then
          some (entry.1.toList.length, entry.2)
        else best) best = some (n, tok) →
      best = some (n, tok) ∨ ∃ name, (name, tok) ∈ entries := by
    intro entries
    induction entries with
    | nil => exact fun best same => .inl same
    | cons entry rest ih =>
      intro best same
      rcases ih _ same with here | ⟨name, mem⟩
      · dsimp only at here
        split at here
        · cases here
          exact .inr ⟨entry.1, List.mem_cons_self ..⟩
        · exact .inl here
      · exact .inr ⟨name, List.mem_cons_of_mem _ mem⟩
  rcases fold table none found with none_ | mem
  · cases none_
  · exact mem

set_option maxRecDepth 100000 in
theorem table_plain (dialect : Dialect) : ∀ entry ∈ table dialect, (0 : Byte) ∉ entry.2 := by
  cases dialect <;> decide

theorem utf8_plain : ∀ entry ∈ utf8, entry.2 ≠ 0 := by decide

theorem petscii_plain {c : Char} {pet : Byte} (h : petscii c = some pet) : pet ≠ 0 := by
  unfold petscii at h
  split at h
  next lower =>
    cases h
    have first : 0x61 ≤ c.toNat := lower.1
    have last : c.toNat ≤ 0x7A := lower.2
    intro zero
    have := congrArg BitVec.toNat zero
    rw [BitVec.toNat_ofNat] at this
    change _ = 0 at this
    omega
  · split at h
    · cases h
      decide
    · split at h
      · cases h
        decide
      · split at h
        · cases h
          decide
        · split at h
          next shown =>
            cases h
            intro zero
            have := congrArg BitVec.toNat zero
            rw [BitVec.toNat_ofNat] at this
            change _ = 0 at this
            omega
          · cases h

/-- Only an escape puts a zero into a line. -/
theorem crunch_plain {dialect : Dialect} {done : ℕ} {mode : Mode} {line : Text} {out : List Byte}
    (h : crunch (table dialect) done mode line = .ok out) (no_brace : '\x7b' ∉ line) : 0 ∉ out := by
  induction line generalizing done mode out with
  | nil =>
    simp only [crunch, Except.ok.injEq] at h
    simp [← h]
  | cons c rest ih =>
    obtain ⟨here, later⟩ := not_or.mp (List.mem_cons.not.mp no_brace)
    have append : ∀ {front : List Byte} {done mode}, 0 ∉ front →
        (front ++ ·) <$> crunch (table dialect) done mode rest = .ok out → 0 ∉ out := by
      intro front done mode plain same
      cases crunched : crunch (table dialect) done mode rest with
      | error msg =>
        rw [crunched] at same
        cases same
      | ok tail =>
        rw [crunched] at same
        cases same
        exact List.mem_append.not.mpr (not_or.mpr ⟨plain, ih crunched later⟩)
    cases done with
    | succ done => exact ih h later
    | zero =>
      rw [crunch, if_neg (Ne.symm here)] at h
      split at h
      · split at h
        · cases h
        next seq v found =>
          have nonzero := utf8_plain _ (List.mem_of_find?_eq_some found)
          have plain : 0 ∉ [v] := by simpa using nonzero.symm
          exact append plain h
      · dsimp only at h
        split at h
        · have plain : (0 : Byte) ∉ [0x99] := by decide
          exact append plain h
        · split at h
          next length tok found =>
            split at found
            · cases found
            · obtain ⟨name, mem⟩ := keyword_mem found
              exact append (table_plain dialect _ mem) h
          · split at h
            · cases h
            next pet found =>
              have plain : 0 ∉ [pet] := by simpa using (petscii_plain found).symm
              exact append plain h

/-! ## One line -/

section Step
variable {table : Tokens} {start : BitVec 16} {fileName : Text} {s : Lines} {line : Text}

theorem errors_error (msg : Text) : (s.error fileName msg).errors ≠ [] := by
  simp [Lines.error]

/-- What a line does: nothing, an error, or one line more at the end of the program. -/
inductive Effect (table : Tokens) (start : BitVec 16) (s : Lines) (line : Text) (s' : Lines) : Prop
  | remark (remark : Remark line) (none_ : programLine table line = none)
      (errors : s'.errors = s.errors) (body : s'.body = s.body) (last : s'.lastLineNo = s.lastLineNo)
  | refused (errors : s'.errors ≠ [])
      (reason : ¬Remark line ∧ ∀ l, programLine table line = some l → (l.1.toNat : ℤ) ≤ s.lastLineNo)
  | taken (l : Line) (found : programLine table line = some l) (above : s.lastLineNo < l.1.toNat)
      (errors : s'.errors = s.errors) (last : s'.lastLineNo = l.1.toNat)
      (body : s'.body = s.body ++ lineBytes (start + BitVec.ofNat 16 (s.body.length + (l.2.length + 5))) l)

theorem set_behind {α : Type} (before : List α) (a b : α) (rest : List α) (x y : α) :
    ((before ++ (a :: b :: rest)).set before.length x).set (before.length + 1) y =
      before ++ (x :: y :: rest) := by
  simp

theorem body_addLine (lineNo : ℕ) (out : List Byte) :
    (s.addLine start lineNo out).body = s.body ++
      lineBytes (start + BitVec.ofNat 16 (s.body.length + (out.length + 5)))
        (BitVec.ofNat 16 lineNo, out) := by
  have low : BitVec.ofNat 8 (lineNo &&& 0xFF) = (BitVec.ofNat 16 lineNo).setWidth 8 := by
    apply BitVec.eq_of_toNat_eq
    simp [Nat.and_two_pow_sub_one_eq_mod lineNo 8]
  have high : BitVec.ofNat 8 ((lineNo >>> 8) &&& 0xFF) = (BitVec.ofNat 16 lineNo >>> 8).setWidth 8 := by
    apply BitVec.eq_of_toNat_eq
    simp [Nat.and_two_pow_sub_one_eq_mod _ 8, Nat.shiftRight_eq_div_pow]
    omega
  have length : (s.body ++ (([0, 0] : List Byte) ++ [(BitVec.ofNat 16 lineNo).setWidth 8,
      (BitVec.ofNat 16 lineNo >>> 8).setWidth 8] ++ out ++ [0])).length =
      s.body.length + (out.length + 5) := by
    simp
  unfold Lines.addLine
  dsimp only
  rw [low, high, length]
  exact set_behind ..

theorem toNat_number {lineNo : ℕ} (small : lineNo ≤ 63999) :
    (BitVec.ofNat 16 lineNo).toNat = lineNo := by
  rw [BitVec.toNat_ofNat]
  exact Nat.mod_eq_of_lt (by omega)

theorem effect_line (table : Tokens) (start : BitVec 16) (fileName : Text) (s : Lines) (line : Text) :
    Effect table start s line (s.line table start fileName line) := by
  unfold Lines.line
  dsimp only
  cases front : trimmed line with
  | nil =>
    have blank : (withoutReturn line).dropWhile isBlank = [] := front
    simp only [blank]
    exact .remark (by simp [Remark, front]) (by simp [programLine, front]) rfl rfl rfl
  | cons c rest =>
    have here : (withoutReturn line).dropWhile isBlank = c :: rest := front
    simp only [here]
    by_cases comment : c = ';' ∨ c = '#'
    · rw [if_pos comment]
      refine .remark (by simpa [Remark, front] using comment) ?_ rfl rfl rfl
      rcases comment with rfl | rfl <;> simp [programLine, front]
    · have no_remark : ¬Remark line := by simpa [Remark, front] using comment
      rw [if_neg comment]
      by_cases digit : c.isDigit
      · have found : ∀ l, programLine table line = some l ↔ _ := fun l => programLine_eq front digit
        simp only [digit, Bool.not_true, Bool.false_eq_true, if_false]
        generalize lineNumber 0 (c :: rest) = number at found
        obtain ⟨lineNo, rest'⟩ := number
        dsimp only at found ⊢
        by_cases large : 63999 < lineNo
        · rw [if_pos large]
          refine .refused (errors_error _) ⟨no_remark, ?_⟩
          intro l taken
          obtain ⟨out, -, small, -, -⟩ := (found _).mp taken
          omega
        · rw [if_neg large]
          by_cases order : (lineNo : ℤ) ≤ s.lastLineNo
          · rw [if_pos order]
            refine .refused (errors_error _) ⟨no_remark, ?_⟩
            intro l taken
            obtain ⟨out, -, small, -, rfl⟩ := (found _).mp taken
            rwa [toNat_number small]
          · rw [if_neg order]
            cases crunched : crunch table 0 ⟨false, false, false⟩ (rest'.dropWhile isBlank) with
            | error msg =>
              refine .refused (errors_error _) ⟨no_remark, ?_⟩
              intro l taken
              obtain ⟨out, ok, -⟩ := (found _).mp taken
              rw [crunched] at ok
              cases ok
            | ok out =>
              dsimp only
              by_cases long : 250 < out.length
              · rw [if_pos long]
                refine .refused (errors_error _) ⟨no_remark, ?_⟩
                intro l taken
                obtain ⟨out', ok, -, short, -⟩ := (found _).mp taken
                rw [crunched] at ok
                cases ok
                omega
              · rw [if_neg long]
                have small : lineNo ≤ 63999 := by omega
                refine .taken (BitVec.ofNat 16 lineNo, out) ?_ ?_ rfl ?_ (body_addLine ..)
                · exact (found _).mpr ⟨out, crunched, small, by omega, rfl⟩
                · rw [toNat_number small]
                  omega
                · rw [toNat_number small]
                  rfl
      · simp only [digit, Bool.not_false, if_true]
        refine .refused (errors_error _) ⟨no_remark, ?_⟩
        intro l taken
        simp [programLine, front, digit] at taken

theorem refused_line (refused : s.errors ≠ []) : (s.line table start fileName line).errors ≠ [] := by
  cases effect_line table start fileName s line with
  | remark _ _ errors => rwa [errors]
  | refused errors => exact errors
  | taken _ _ _ errors => rwa [errors]

theorem refused_lines (refused : s.errors ≠ []) (lines : List Text) :
    (lines.foldl (Lines.line table start fileName) s).errors ≠ [] := by
  induction lines generalizing s with
  | nil => exact refused
  | cons line rest ih => exact ih (refused_line refused)

end Step

/-! ## All lines -/

section Run
variable {table : Tokens} {last : ℤ} {line : Text} {rest : List Text}

theorem acceptable_remark (remark : Remark line) (none_ : programLine table line = none) :
    Acceptable table last (line :: rest) ↔ Acceptable table last rest := by
  simp [Acceptable, programLines, remark, none_]

theorem acceptable_taken {l : Line} (found : programLine table line = some l)
    (above : last < l.1.toNat) :
    Acceptable table last (line :: rest) ↔ Acceptable table l.1.toNat rest := by
  have lines : programLines table (line :: rest) = l :: programLines table rest :=
    List.filterMap_cons_some found
  unfold Acceptable
  rw [List.forall_mem_cons, lines, ascending_cons, found]
  simp [above]

theorem not_acceptable (reason : ¬Remark line ∧ ∀ l, programLine table line = some l →
    (l.1.toNat : ℤ) ≤ last) : ¬Acceptable table last (line :: rest) := by
  rintro ⟨all, above, -⟩
  rcases all line (List.mem_cons_self ..) with remark | found
  · exact reason.1 remark
  · obtain ⟨l, found⟩ := Option.isSome_iff_exists.mp found
    have low := reason.2 l found
    have high := above l (List.mem_filterMap.mpr ⟨line, List.mem_cons_self .., found⟩)
    omega

/-- Without an error exactly on acceptable texts, and then their lines are laid out. -/
theorem lines_run (table : Tokens) (start : BitVec 16) (fileName : Text) {s : Lines} (clean : s.errors = [])
    (lines : List Text) :
    ((lines.foldl (Lines.line table start fileName) s).errors = [] ↔
        Acceptable table s.lastLineNo lines) ∧
      (Acceptable table s.lastLineNo lines →
        (lines.foldl (Lines.line table start fileName) s).body =
          s.body ++ layOut (start.toNat + s.body.length) (programLines table lines)) := by
  induction lines generalizing s with
  | nil => simp [clean, Acceptable, Ascending, programLines, layOut]
  | cons line rest ih =>
    rw [List.foldl_cons]
    cases effect_line table start fileName s line with
    | remark remark none_ errors body last =>
      have lines : programLines table (line :: rest) = programLines table rest :=
        List.filterMap_cons_none none_
      have later := ih (errors.trans clean)
      rw [acceptable_remark remark none_, lines, ← body, ← last]
      exact later
    | refused errors reason =>
      exact ⟨iff_of_false (refused_lines errors rest) (not_acceptable reason),
        fun accepted => absurd accepted (not_acceptable reason)⟩
    | taken l found above errors last body =>
      have lines : programLines table (line :: rest) = l :: programLines table rest :=
        List.filterMap_cons_some found
      have later := ih (errors.trans clean)
      have next : BitVec.ofNat 16 (start.toNat + s.body.length + (l.2.length + 5)) =
          start + BitVec.ofNat 16 (s.body.length + (l.2.length + 5)) := by
        rw [Nat.add_assoc, BitVec.ofNat_add, BitVec.ofNat_toNat, BitVec.setWidth_eq]
      rw [acceptable_taken found above, lines, ← last]
      refine ⟨later.1, fun accepted => ?_⟩
      rw [later.2 accepted, body, layOut, next, List.append_assoc, List.length_append,
        length_lineBytes, Nat.add_assoc start.toNat]

end Run

/-! ## Programs -/

section Programs
variable (source : Text) (dialect : Dialect) (start : BitVec 16) (fileName : Text)

/-- The lines of a program in a text. -/
def sourceLines : List Line := programLines (table dialect) (getlines source)

/-- Link, number, text and zero of every line, and the zero link, end in memory. -/
def Fits : Prop := start.toNat + size (sourceLines source dialect) + 2 ≤ 2 ^ 16

/-- The text is a program by its lines. -/
def WellWritten : Prop := Acceptable (table dialect) (-1) (getlines source)

/-- What is emitted for a text that is accepted is its load address and a chain of its lines, in
ascending order, with the zero link at the end; a text whose program is too long is refused. -/
structure WellFormed (chain : (ℕ → Option Byte) → ℕ → List Line → Prop) : Prop where
  accepted : (tokenize source dialect start fileName).errors = [] →
    ∃ program, (tokenize source dialect start fileName).prg =
        start.setWidth 8 :: (start >>> 8).setWidth 8 :: program ∧
      chain (loaded start.toNat program) start.toNat (sourceLines source dialect) ∧
      program.length = size (sourceLines source dialect) + 2 ∧
      (sourceLines source dialect).Pairwise fun l l' => l.1 < l'.1
  refused : ¬Fits source dialect start → (tokenize source dialect start fileName).errors ≠ []

theorem mem_of_getlines {c : Char} {source line : Text} (mem : line ∈ getlines source)
    (here : c ∈ line) : c ∈ source := by
  induction source generalizing line with
  | nil => simp [getlines] at mem
  | cons d rest ih =>
    unfold getlines at mem
    split at mem
    · rcases List.mem_cons.mp mem with rfl | later
      · cases here
      · exact List.mem_cons_of_mem _ (ih later here)
    · cases lines : getlines rest with
      | nil =>
        rw [lines, List.mem_singleton] at mem
        subst mem
        exact List.mem_cons.mpr (.inl (List.mem_singleton.mp here))
      | cons first others =>
        rw [lines] at ih mem
        rcases List.mem_cons.mp mem with rfl | later
        · rcases List.mem_cons.mp here with rfl | inside
          · exact List.mem_cons_self ..
          · exact List.mem_cons_of_mem _ (ih (List.mem_cons_self ..) inside)
        · exact List.mem_cons_of_mem _ (ih (List.mem_cons_of_mem _ later) here)

/-- A text without escapes makes lines without zeros. -/
theorem sourceLines_plain (no_brace : '\x7b' ∉ source) : ∀ l ∈ sourceLines source dialect, 0 ∉ l.2 := by
  intro l mem
  obtain ⟨line, inside, found⟩ := List.mem_filterMap.mp mem
  have plain : '\x7b' ∉ trimmed line := by
    intro brace
    have trimmed_sub : '\x7b' ∈ withoutReturn line := (List.dropWhile_sublist _).mem brace
    apply no_brace
    apply mem_of_getlines inside
    unfold withoutReturn at trimmed_sub
    split at trimmed_sub
    · exact List.mem_of_mem_dropLast trimmed_sub
    · exact trimmed_sub
  unfold programLine at found
  simp only [Option.ite_none_right_eq_some] at found
  obtain ⟨-, found⟩ := found
  split at found
  · cases found
  next out crunched =>
    simp only [Option.ite_none_right_eq_some, Option.some.injEq] at found
    obtain ⟨-, rfl⟩ := found
    refine crunch_plain crunched fun brace => plain ?_
    exact (lineNumber_suffix 0 (trimmed line)).mem ((List.dropWhile_sublist _).mem brace)

theorem tokenize_accepts_iff :
    (tokenize source dialect start fileName).errors = [] ↔ WellWritten source dialect := by
  have run := (lines_run (table dialect) start fileName (s := ⟨[], [], -1, 0⟩) rfl
    (getlines source)).1
  unfold tokenize WellWritten
  dsimp only
  rw [← run]
  split
  next some_ => exact iff_of_false some_ some_
  next => exact Iff.rfl

theorem prg_of_accepted (accepted : WellWritten source dialect) :
    (tokenize source dialect start fileName).prg =
      start.setWidth 8 :: (start >>> 8).setWidth 8 ::
        (layOut start.toNat (sourceLines source dialect) ++ [0, 0]) := by
  have run := lines_run (table dialect) start fileName (s := ⟨[], [], -1, 0⟩) rfl
    (getlines source)
  unfold tokenize
  dsimp only
  rw [if_neg (not_not.mpr (run.1.mpr accepted)), run.2 accepted]
  simp [sourceLines]

theorem wellFormed_iff_of {chain : (ℕ → Option Byte) → ℕ → List Line → Prop} {C : Prop}
    (laid : chain (loaded start.toNat (layOut start.toNat (sourceLines source dialect) ++ [0, 0]))
      start.toNat (sourceLines source dialect) ↔ C) (fits : C → Fits source dialect start) :
    WellFormed source dialect start fileName chain ↔ (WellWritten source dialect → C) := by
  constructor
  · intro formed written
    obtain ⟨program, prg, chain, -⟩ :=
      formed.accepted ((tokenize_accepts_iff source dialect start fileName).mpr written)
    rw [prg_of_accepted source dialect start fileName written] at prg
    cases prg
    exact laid.mp chain
  · intro holds
    constructor
    · intro accepted
      have written := (tokenize_accepts_iff source dialect start fileName).mp accepted
      refine ⟨_, prg_of_accepted source dialect start fileName written, laid.mpr (holds written), ?_,
        written.2.2⟩
      rw [List.length_append, length_layOut]
      rfl
    · intro long accepted
      exact long (fits (holds ((tokenize_accepts_iff source dialect start fileName).mp accepted)))

/-- A program is well formed exactly if it fits, or its text is refused for another reason. If the
zero behind a line is to be its first one, no text may hold a zero besides. -/
theorem well_formed_iff :
    (WellFormed source dialect start fileName Links ↔
        (WellWritten source dialect → Fits source dialect start)) ∧
      (WellFormed source dialect start fileName Chain ↔
        (WellWritten source dialect →
          (∀ l ∈ sourceLines source dialect, 0 ∉ l.2) ∧ Fits source dialect start)) := by
  constructor
  · exact wellFormed_iff_of source dialect start fileName (links_layOut_iff ..) id
  · exact wellFormed_iff_of source dialect start fileName (chain_layOut_iff ..) And.right

/-- A text without escapes is well formed, zeros included, exactly if it fits or is refused. -/
theorem plain_text_well_formed_iff (no_brace : '\x7b' ∉ source) :
    WellFormed source dialect start fileName Chain ↔
      (WellWritten source dialect → Fits source dialect start) :=
  wellFormed_iff_of source dialect start fileName
    ((chain_layOut_iff ..).trans (and_iff_right (sourceLines_plain source dialect no_brace))) id

theorem plain_text_well_formed_iff_print :
    WellFormed (text "10 ?") .Basic2 0x0801 (text "t.bas") Chain ↔
      (WellWritten (text "10 ?") .Basic2 → Fits (text "10 ?") .Basic2 0x0801) :=
  plain_text_well_formed_iff _ _ _ _ (by decide)

end Programs

/-- A line whose end is the end of memory: its link is the zero link. -/
theorem not_well_formed_top : ¬WellFormed (text "10 ?") .Basic2 0xFFFA (text "t.bas") Links := by
  intro formed
  have long : ¬Fits (text "10 ?") .Basic2 0xFFFA := by
    unfold Fits
    decide
  exact formed.refused long (by decide)

end Mmemu.Guarantees.BasicPrograms
