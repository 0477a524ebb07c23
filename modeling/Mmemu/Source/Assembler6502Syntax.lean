import Mmemu.Source.Assembler6502

/-!
# Operands as written

What the operand of a line says, apart from how its numbers are spelled. The chain of
expressions depends on nothing else, and the disassembler's text is a line of this syntax.
-/
namespace Mmemu.Source.Assembler6502
open Mmemu.Library.Numerals
open Mmemu.Source.MemoryBus Mmemu.Source.Cpu6502

/-- Where an operand with one number has it. -/
inductive Form where
  | imm | indx | indy | ind | absx | absy | abs
  deriving DecidableEq, Repr

def Form.before : Form → Text
  | .imm => ['#']
  | .indx | .indy | .ind => ['(']
  | .absx | .absy | .abs => []

def Form.after : Form → Text
  | .imm | .abs => []
  | .indx => [',', 'X', ')']
  | .indy => [')', ',', 'Y']
  | .ind => [')']
  | .absx => [',', 'X']
  | .absy => [',', 'Y']

def Form.around (form : Form) (t : Text) : Text := form.before ++ t ++ form.after

theorem Form.around_imm (t : Text) : Form.imm.around t = '#' :: t := List.append_nil _

theorem Form.around_abs (t : Text) : Form.abs.around t = t := List.append_nil t

/-- What an operand says; `pair` is the zero-page byte and the target of BBR and BBS. -/
inductive Operand where
  | none
  | acc
  | one (form : Form) (n : ℕ)
  | pair (n m : ℕ)
  deriving DecidableEq, Repr

/-- The text writes the operand. -/
inductive Writes : Text → Operand → Prop
  | none : Writes [] .none
  | acc : Writes ['A'] .acc
  | one (form : Form) {t : Text} (number : isNumber t = true) :
      Writes (form.around t) (.one form (numberOf t))
  | pair {t u : Text} (first : isNumber t = true) (second : isNumber u = true) :
      Writes (t ++ ',' :: u) (.pair (numberOf t) (numberOf u))

/-! ## The expressions -/

/-- The characters of a text that belong to no number. -/
def punctuation (text : Text) : Text := text.filter fun c => !(c == '$' || isHexDigit c)

theorem punctuation_append (s t : Text) : punctuation (s ++ t) = punctuation s ++ punctuation t :=
  List.filter_append _ _

theorem isHexDigit_of_isDigit {c : Char} (digit : c.isDigit = true) : isHexDigit c = true := by
  simp [isHexDigit, digit]

theorem isNumber_ne_nil {t : Text} (number : isNumber t = true) : t ≠ [] := by
  rintro rfl
  exact absurd number (by decide)

theorem isNumber_chars {t : Text} (number : isNumber t = true) :
    ∀ c ∈ t, (c == '$' || isHexDigit c) = true := by
  intro c mem
  unfold isNumber at number
  split at number
  · rename_i digits
    rcases List.mem_cons.mp mem with rfl | mem
    · rfl
    · have all := (Bool.and_eq_true_iff.mp number).2
      simp [List.all_eq_true.mp all c mem]
  · have all := (Bool.and_eq_true_iff.mp number).2
    simp [isHexDigit_of_isDigit (List.all_eq_true.mp all c mem)]

theorem punctuation_number {t : Text} (number : isNumber t = true) : punctuation t = [] := by
  refine List.filter_eq_nil_iff.mpr fun c mem => ?_
  simp [isNumber_chars number c mem]

theorem comma_notMem_number {t : Text} (number : isNumber t = true) : ∀ c ∈ t, (c != ',') = true := by
  intro c mem
  have chars := isNumber_chars number c mem
  have ne : c ≠ ',' := by
    rintro rfl
    exact absurd chars (by decide)
  simp [ne]

section NumberBetween
variable {before after oper number : Text}

theorem numberBetween_eq_some :
    numberBetween before after oper = some number ↔
      oper = before ++ number ++ after ∧ isNumber number = true := by
  constructor
  · intro matched
    unfold numberBetween at matched
    dsimp only at matched
    split at matched
    · rename_i h
      obtain rfl := Option.some.inj matched
      exact h
    · exact absurd matched (by simp)
  · rintro ⟨rfl, ok⟩
    have middle : ((before ++ number ++ after).drop before.length).take
        ((before ++ number ++ after).length - before.length - after.length) = number := by
      have len : (before ++ number ++ after).length - before.length - after.length
          = number.length := by
        simp only [List.length_append]
        omega
      rw [len, List.append_assoc, List.drop_left, List.take_left]
    unfold numberBetween
    dsimp only
    rw [middle, if_pos ⟨rfl, ok⟩]

/-- A text with other punctuation does not match. -/
theorem numberBetween_eq_none
    (differ : punctuation oper ≠ punctuation before ++ punctuation after) :
    numberBetween before after oper = none := by
  rw [Option.eq_none_iff_forall_ne_some]
  intro number matched
  obtain ⟨rfl, ok⟩ := numberBetween_eq_some.mp matched
  apply differ
  rw [punctuation_append, punctuation_append, punctuation_number ok, List.append_nil]

end NumberBetween

theorem re_zprel_eq_some {oper first second : Text} :
    re_zprel oper = some (first, second) ↔
      oper = first ++ ',' :: second ∧ isNumber first = true ∧ isNumber second = true := by
  constructor
  · intro matched
    unfold re_zprel at matched
    dsimp only at matched
    split at matched
    · rename_i h
      obtain ⟨rfl, rfl⟩ := Prod.mk.inj (Option.some.inj matched)
      exact h
    · exact absurd matched (by simp)
  · rintro ⟨rfl, ok, ok'⟩
    have split : (first ++ ',' :: second).takeWhile (· != ',') = first := by
      rw [List.takeWhile_append_of_pos (comma_notMem_number ok)]
      simp
    have rest : (first ++ ',' :: second).drop (first.length + 1) = second := by simp
    unfold re_zprel
    dsimp only
    rw [split, rest, if_pos ⟨rfl, ok, ok'⟩]

theorem re_zprel_eq_none {oper : Text} (differ : punctuation oper ≠ [',']) :
    re_zprel oper = none := by
  rw [Option.eq_none_iff_forall_ne_some]
  rintro ⟨first, second⟩ matched
  obtain ⟨rfl, ok, ok'⟩ := re_zprel_eq_some.mp matched
  apply differ
  rw [punctuation_append, punctuation_number ok]
  change punctuation ([','] ++ second) = _
  rw [punctuation_append, punctuation_number ok']
  rfl

/-! ## Reading an operand -/

/-- The expression for one form. -/
def Form.re (form : Form) : Text → Option Text := numberBetween form.before form.after

/-- The punctuation of a form shows which it is. -/
theorem Form.punctuation_inj {f g : Form} (same : f.before ++ f.after = g.before ++ g.after) :
    f = g := by
  cases f <;> cases g <;> first | rfl | exact absurd same (by decide)

theorem Form.punctuation_plain (f : Form) :
    punctuation f.before ++ punctuation f.after = f.before ++ f.after := by
  cases f <;> rfl

section Numbered
variable {f g : Form} {t u : Text}

theorem punctuation_one (number : isNumber t = true) :
    punctuation (f.around t) = f.before ++ f.after := by
  rw [Form.around, punctuation_append, punctuation_append, punctuation_number number, List.append_nil,
    f.punctuation_plain]

theorem punctuation_pair (first : isNumber t = true) (second : isNumber u = true) :
    punctuation (t ++ ',' :: u) = [','] := by
  have comma : punctuation (',' :: u) = punctuation [','] ++ punctuation u :=
    punctuation_append [','] u
  rw [punctuation_append, punctuation_number first, comma, punctuation_number second]
  rfl

theorem re_same (number : isNumber t = true) : f.re (f.around t) = some t :=
  numberBetween_eq_some.mpr ⟨rfl, number⟩

theorem re_other (number : isNumber t = true) (other : g ≠ f) :
    g.re (f.around t) = none := by
  refine numberBetween_eq_none ?_
  rw [punctuation_one number, g.punctuation_plain]
  exact fun same => other (Form.punctuation_inj same.symm)

theorem re_pair (first : isNumber t = true) (second : isNumber u = true) :
    g.re (t ++ ',' :: u) = none := by
  refine numberBetween_eq_none ?_
  rw [punctuation_pair first second, g.punctuation_plain]
  cases g <;> decide

theorem re_zprel_one (number : isNumber t = true) :
    re_zprel (f.around t) = none := by
  refine re_zprel_eq_none ?_
  rw [punctuation_one number]
  cases f <;> decide

theorem one_ne_nil (number : isNumber t = true) : f.around t ≠ [] := by
  simp [Form.around, isNumber_ne_nil number]

theorem one_ne_acc (number : isNumber t = true) : f.around t ≠ ['A'] := by
  intro acc
  have plain := punctuation_one (f := f) number
  rw [acc] at plain
  have bare : f.before = [] ∧ f.after = [] := List.append_eq_nil_iff.mp plain.symm
  rw [Form.around, bare.1, bare.2, List.nil_append, List.append_nil] at acc
  rw [acc] at number
  exact absurd number (by decide)

theorem pair_ne_nil : t ++ ',' :: u ≠ [] := by simp

theorem pair_ne_acc (first : isNumber t = true) (second : isNumber u = true) :
    t ++ ',' :: u ≠ ['A'] := by
  intro acc
  have plain := punctuation_pair first second
  rw [acc] at plain
  exact absurd plain (by decide)

end Numbered

/-- The operand that a text writes. -/
def operandOf (text : Text) : Option Operand :=
  if text = [] then some .none
  else if text = ['A'] then some .acc
  else if let some t := Form.imm.re text then some (.one .imm (numberOf t))
  else if let some (t, u) := re_zprel text then some (.pair (numberOf t) (numberOf u))
  else if let some t := Form.indx.re text then some (.one .indx (numberOf t))
  else if let some t := Form.indy.re text then some (.one .indy (numberOf t))
  else if let some t := Form.ind.re text then some (.one .ind (numberOf t))
  else if let some t := Form.absx.re text then some (.one .absx (numberOf t))
  else if let some t := Form.absy.re text then some (.one .absy (numberOf t))
  else if let some t := Form.abs.re text then some (.one .abs (numberOf t))
  else none

theorem operandOf_of_writes {text : Text} {o : Operand} (writes : Writes text o) :
    operandOf text = some o := by
  cases writes with
  | none => rfl
  | acc => rfl
  | one f number =>
    have others := fun g => re_other (g := g) (f := f) number
    unfold operandOf
    rw [if_neg (one_ne_nil number), if_neg (one_ne_acc number), re_zprel_one number]
    cases f <;> simp [others, re_same number]
  | pair first second =>
    unfold operandOf
    rw [if_neg pair_ne_nil, if_neg (pair_ne_acc first second), re_pair first second,
      re_zprel_eq_some.mpr ⟨rfl, first, second⟩]

theorem writes_of_re {f : Form} {text t : Text} (matched : f.re text = some t) :
    Writes text (.one f (numberOf t)) := by
  obtain ⟨rfl, number⟩ := numberBetween_eq_some.mp matched
  exact .one f number

theorem writes_of_operandOf {text : Text} {o : Operand} (read : operandOf text = some o) :
    Writes text o := by
  unfold operandOf at read
  split at read
  next empty => subst empty; obtain rfl := Option.some.inj read; exact .none
  next =>
  split at read
  next a => subst a; obtain rfl := Option.some.inj read; exact .acc
  next =>
  split at read
  next h => obtain rfl := Option.some.inj read; exact writes_of_re h
  next =>
  split at read
  next h =>
    obtain ⟨rfl, first, second⟩ := re_zprel_eq_some.mp h
    obtain rfl := Option.some.inj read
    exact .pair first second
  next =>
  split at read
  next h => obtain rfl := Option.some.inj read; exact writes_of_re h
  next =>
  split at read
  next h => obtain rfl := Option.some.inj read; exact writes_of_re h
  next =>
  split at read
  next h => obtain rfl := Option.some.inj read; exact writes_of_re h
  next =>
  split at read
  next h => obtain rfl := Option.some.inj read; exact writes_of_re h
  next =>
  split at read
  next h => obtain rfl := Option.some.inj read; exact writes_of_re h
  next =>
  split at read
  next h => obtain rfl := Option.some.inj read; exact writes_of_re h
  next => exact absurd read (by simp)

theorem writes_iff {text : Text} {o : Operand} : Writes text o ↔ operandOf text = some o :=
  ⟨operandOf_of_writes, writes_of_operandOf⟩

/-! ## Selecting the mode of an operand -/

/-- A number as the assembler holds it. -/
def held (n : ℕ) : Except Refusal (BitVec 32) :=
  if n < 2 ^ 64 then .ok (BitVec.ofNat 32 n) else .error .outOfRange

/-- The mode for a form, where `val` is the number as the assembler holds it. -/
def modeOf (count : AsmMode → Bool) (form : Form) (val : BitVec 32) : AsmMode :=
  match form with
  | .imm => .imm
  | .indx => if count .absxind then .absxind else .zpxind
  | .indy => .indzpy
  | .ind => if count .zpind then .zpind else .ind
  | .absx => if val ≤ 0xFF && count .zpx then .zpx else .absx
  | .absy => if val ≤ 0xFF && count .zpy then .zpy else .absy
  | .abs => if count .rel then .rel else if val ≤ 0xFF && count .zp then .zp else .abs

def select (count : AsmMode → Bool) : Operand → Except Refusal Selection
  | .none => .ok ⟨.imp, 0, 0⟩
  | .acc => .ok ⟨.acc, 0, 0⟩
  | .one form n => do
    let val ← held n
    return ⟨modeOf count form val, val, 0⟩
  | .pair n m =>
    if count .zprel then do return ⟨.zprel, ← held n, ← held m⟩ else .error .rejected

/-- The named expressions are those of the forms. -/
theorem named_re : re_imm = Form.re .imm ∧ re_indx = Form.re .indx ∧ re_indy = Form.re .indy ∧
    re_ind = Form.re .ind ∧ re_absx = Form.re .absx ∧ re_absy = Form.re .absy ∧
    re_abs = Form.re .abs :=
  ⟨rfl, rfl, rfl, rfl, rfl, rfl, rfl⟩

/-- The chain of expressions depends on what the operand says only. -/
theorem selectMode_of_writes (count : AsmMode → Bool) {text : Text} {o : Operand}
    (writes : Writes text o) : selectMode count text = select count o := by
  obtain ⟨imm, indx, indy, ind, absx, absy, abs⟩ := named_re
  cases writes with
  | none => rfl
  | acc => rfl
  | one f number =>
    have others := fun g => re_other (g := g) (f := f) number
    unfold selectMode
    rw [if_neg (one_ne_nil number), if_neg (one_ne_acc number), re_zprel_one number, ite_self,
      imm, indx, indy, ind, absx, absy, abs]
    cases f <;> simp only [others, re_same number, ne_eq, reduceCtorEq, not_false_eq_true] <;> rfl
  | pair first second =>
    unfold selectMode
    rw [if_neg pair_ne_nil, if_neg (pair_ne_acc first second), imm, indx, indy, ind, absx, absy,
      abs, re_zprel_eq_some.mpr ⟨rfl, first, second⟩]
    simp only [re_pair first second]
    cases h : count .zprel with
    | true => simp only [select, h]; rfl
    | false => simp only [select, h]; rfl

theorem writes_of_selectMode {count : AsmMode → Bool} {text : Text} {sel : Selection}
    (selected : selectMode count text = .ok sel) : ∃ o, Writes text o := by
  obtain ⟨imm, indx, indy, ind, absx, absy, abs⟩ := named_re
  unfold selectMode at selected
  rw [imm, indx, indy, ind, absx, absy, abs] at selected
  split at selected
  next empty => subst empty; exact ⟨_, .none⟩
  next =>
  split at selected
  next a => subst a; exact ⟨_, .acc⟩
  next =>
  split at selected
  next h => exact ⟨_, writes_of_re h⟩
  next =>
  split at selected
  next h =>
    split at h
    · obtain ⟨rfl, first, second⟩ := re_zprel_eq_some.mp h
      exact ⟨_, .pair first second⟩
    · exact absurd h (by simp)
  next =>
  split at selected
  next h => exact ⟨_, writes_of_re h⟩
  next =>
  split at selected
  next h => exact ⟨_, writes_of_re h⟩
  next =>
  split at selected
  next h => exact ⟨_, writes_of_re h⟩
  next =>
  split at selected
  next h => exact ⟨_, writes_of_re h⟩
  next =>
  split at selected
  next h => exact ⟨_, writes_of_re h⟩
  next =>
  split at selected
  next h => exact ⟨_, writes_of_re h⟩
  next => exact absurd selected (by simp)

/-! ## The disassembler's text -/

/-- The operand that the disassembler prints. -/
def shown (mode : Mode) (addr : BitVec 32) (lo hi : BitVec 8) : Operand :=
  let byte := lo.toNat
  let word := (hi ++ lo).toNat
  match mode with
  | .imp => .none
  | .acc => .acc
  | .imm => .one .imm byte
  | .bp => .one .abs byte
  | .bpx => .one .absx byte
  | .bpy => .one .absy byte
  | .rel => .one .abs (branchTarget (addr + 2) lo).toNat
  | .abs => .one .abs word
  | .absx => .one .absx word
  | .absy => .one .absy word
  | .ind => .one .ind word
  | .bpxind => .one .indx byte
  | .indbpy => .one .indy byte
  | .bpind => .one .ind byte
  | .absxind => .one .indx word
  | .bprel => .pair byte (branchTarget (addr + 3) hi).toNat

theorem glyph_spec (d : ℕ) (inRange : d < 16) :
    isHexDigit (hexDigits.glyph d) = true ∧ isspace (hexDigits.glyph d) = false ∧
      (hexDigits.glyph d).toUpper = hexDigits.glyph d := by
  revert d
  decide

theorem isNumber_dollar (width : ℕ) (positive : 0 < width) (n : ℕ) :
    isNumber (dollar width n) = true := by
  have nonempty : hexDigits.render width n ≠ [] := by
    refine List.ne_nil_of_length_pos ?_
    rw [Digits.length_render]
    exact positive
  have all : (hexDigits.render width n).all isHexDigit = true := by
    refine List.all_eq_true.mpr fun c mem => ?_
    obtain ⟨d, inRange, rfl⟩ := hexDigits.mem_render (by decide) mem
    exact (glyph_spec d inRange).1
  simp [isNumber, dollar, nonempty, all]

theorem numberOf_dollar {width n : ℕ} (fits : n < 16 ^ width) : numberOf (dollar width n) = n := by
  rw [dollar, numberOf, hexDigits.value_render (by decide), Nat.mod_eq_of_lt fits]

theorem writes_operandText (mode : Mode) (addr : BitVec 32) (lo hi : BitVec 8) :
    Writes (operandText mode addr lo hi) (shown mode addr lo hi) := by
  have byte : ∀ (f : Form) (b : BitVec 8), Writes (f.around (dollar 2 b.toNat)) (.one f b.toNat) := by
    intro f b
    have writes := Writes.one f (isNumber_dollar 2 (by decide) b.toNat)
    rwa [numberOf_dollar b.isLt] at writes
  have word : ∀ (f : Form) (w : BitVec 16), Writes (f.around (dollar 4 w.toNat)) (.one f w.toNat) := by
    intro f w
    have writes := Writes.one f (isNumber_dollar 4 (by decide) w.toNat)
    rwa [numberOf_dollar w.isLt] at writes
  cases mode with
  | imp => exact .none
  | acc => exact .acc
  | imm =>
    have writes := byte .imm lo
    rwa [Form.around_imm] at writes
  | bp =>
    have writes := byte .abs lo
    rwa [Form.around_abs] at writes
  | bpx => exact byte .absx lo
  | bpy => exact byte .absy lo
  | rel =>
    have writes := word .abs (branchTarget (addr + 2) lo)
    rwa [Form.around_abs] at writes
  | abs =>
    have writes := word .abs (hi ++ lo)
    rwa [Form.around_abs] at writes
  | absx => exact word .absx (hi ++ lo)
  | absy => exact word .absy (hi ++ lo)
  | ind => exact word .ind (hi ++ lo)
  | bpxind => exact byte .indx lo
  | indbpy => exact byte .indy lo
  | bpind => exact byte .ind lo
  | absxind => exact word .indx (hi ++ lo)
  | bprel =>
    have first := isNumber_dollar 2 (by decide) lo.toNat
    have second := isNumber_dollar 4 (by decide) (branchTarget (addr + 3) hi).toNat
    have writes := Writes.pair first second
    rwa [numberOf_dollar lo.isLt, numberOf_dollar (branchTarget (addr + 3) hi).isLt] at writes

/-- A character that the split of a line leaves as it is. -/
def isPlain (c : Char) : Bool := !isspace c && c.toUpper == c

theorem isPlain_render (width n : ℕ) : ∀ c ∈ hexDigits.render width n, isPlain c = true := by
  intro c mem
  obtain ⟨d, inRange, rfl⟩ := hexDigits.mem_render (by decide) mem
  simp [isPlain, (glyph_spec d inRange).2.1, (glyph_spec d inRange).2.2]

theorem isPlain_operandText (mode : Mode) (addr : BitVec 32) (lo hi : BitVec 8) :
    ∀ c ∈ operandText mode addr lo hi, isPlain c = true := by
  have all : (operandText mode addr lo hi).all isPlain = true := by
    have digits : ∀ width n, (hexDigits.render width n).all isPlain = true := fun width n =>
      List.all_eq_true.mpr (isPlain_render width n)
    have marks : "#(),$AXY".toList.all isPlain = true := by decide
    cases mode <;> simp [operandText, dollar, digits, isPlain, isspace] 
  exact List.all_eq_true.mp all

section Plain
variable {text : Text}

theorem plain_isBlank (plain : ∀ c ∈ text, isPlain c = true) : ∀ c ∈ text, isBlank c = false := by
  intro c mem
  have ok := plain c mem
  simp only [isPlain, isspace, isBlank, Bool.and_eq_true, Bool.not_eq_true', Bool.or_eq_false_iff]
    at ok ⊢
  exact ok.1.1.1.1.1

theorem plain_isspace (plain : ∀ c ∈ text, isPlain c = true) : ∀ c ∈ text, (!isspace c) = true :=
  fun c mem => (Bool.and_eq_true_iff.mp (plain c mem)).1

theorem toupper_plain (plain : ∀ c ∈ text, isPlain c = true) : toupper text = text := by
  have same : text.map Char.toUpper = text.map id := by
    refine List.map_congr_left fun c mem => ?_
    exact eq_of_beq (Bool.and_eq_true_iff.mp (plain c mem)).2
  rw [toupper, same, List.map_id]

theorem takeWhile_plain (plain : ∀ c ∈ text, isPlain c = true) :
    text.takeWhile (!isspace ·) = text :=
  List.takeWhile_eq_self_iff.mpr (plain_isspace plain)

end Plain

theorem isBlank_gap (k : ℕ) : ∀ c ∈ List.replicate k ' ' ++ [' '], isBlank c = true := by
  intro c mem
  have space : c = ' ' := by
    rcases List.mem_append.mp mem with padding | last
    · exact (List.mem_replicate.mp padding).2
    · exact List.mem_singleton.mp last
  rw [space]
  rfl

/-- A printed line splits into the mnemonic and the operand it was made of. -/
theorem words_line {mnem oper : Text} (nonempty : mnem ≠ []) (plain : ∀ c ∈ mnem, isPlain c = true)
    (plain' : ∀ c ∈ oper, isPlain c = true) :
    words (mnem.rightpad 4 ' ' ++ ' ' :: oper) = (mnem, oper) ∧
      trim isBlank (mnem.rightpad 4 ' ' ++ ' ' :: oper) ≠ [] := by
  have gap := isBlank_gap (4 - mnem.length)
  generalize spaces : List.replicate (4 - mnem.length) ' ' ++ [' '] = blanks at gap
  have line : mnem.rightpad 4 ' ' ++ ' ' :: oper = mnem ++ (blanks ++ oper) := by
    simp [List.rightpad, ← spaces]
  have start : ∀ rest, (mnem ++ rest).dropWhile isspace = mnem ++ rest := by
    intro rest
    obtain ⟨c, tail, rfl⟩ := List.exists_cons_of_ne_nil nonempty
    have first := plain_isspace plain c List.mem_cons_self
    simp only [List.cons_append]
    rw [List.dropWhile_cons_of_neg (by simpa using first)]
  have trimmed : Trimmed isBlank mnem := trimmed_of_forall (plain_isBlank plain)
  rw [line]
  rcases List.eq_nil_or_concat' oper with rfl | ⟨front, last, operand⟩
  · have whole : trim isBlank (mnem ++ (blanks ++ [])) = mnem := by
      rw [List.append_nil]
      exact trim_append_blanks trimmed gap
    have only := start []
    rw [List.append_nil] at only
    refine ⟨?_, by rw [whole]; exact nonempty⟩
    unfold words
    dsimp only
    rw [whole, only, takeWhile_plain plain, List.dropWhile_eq_nil_iff.mpr (plain_isspace plain),
      toupper_plain plain]
    rfl
  · have ends : Trimmed isBlank (mnem ++ (blanks ++ oper)) := by
      constructor
      · intro c first
        obtain ⟨d, tail, rfl⟩ := List.exists_cons_of_ne_nil nonempty
        obtain rfl := Option.some.inj first
        exact plain_isBlank plain d List.mem_cons_self
      · intro c final
        rw [operand, ← List.append_assoc, ← List.append_assoc, List.getLast?_concat] at final
        obtain rfl := Option.some.inj final
        exact plain_isBlank plain' last (by simp [operand])
    have whole := trim_of_trimmed ends
    have operandTrimmed : Trimmed isBlank oper := trimmed_of_forall (plain_isBlank plain')
    refine ⟨?_, by rw [whole]; simp [nonempty]⟩
    obtain ⟨more, next⟩ : ∃ tail, blanks ++ oper = ' ' :: tail := by
      rw [← spaces]
      cases 4 - mnem.length with
      | zero => exact ⟨oper, rfl⟩
      | succ k => exact ⟨List.replicate k ' ' ++ [' '] ++ oper, rfl⟩
    have mnemonic : (mnem ++ (blanks ++ oper)).takeWhile (!isspace ·) = mnem := by
      rw [List.takeWhile_append_of_pos (plain_isspace plain), next]
      simp [isspace]
    have rest : (mnem ++ (blanks ++ oper)).dropWhile (!isspace ·) = blanks ++ oper := by
      rw [List.dropWhile_append_of_pos (plain_isspace plain), next]
      simp [isspace]
    have oneLine : (blanks ++ oper).takeWhile (· != '\n') = blanks ++ oper := by
      refine List.takeWhile_eq_self_iff.mpr fun c mem => ?_
      have differs : c ≠ '\n' := by
        rintro rfl
        rcases List.mem_append.mp mem with blank | digit
        · exact absurd (gap _ blank) (by decide)
        · exact absurd (plain' _ digit) (by decide)
      simp [differs]
    unfold words
    dsimp only
    rw [whole, start, mnemonic, rest, oneLine, trim_blanks_append gap,
      trim_of_trimmed operandTrimmed, toupper_plain plain, toupper_plain plain']

end Mmemu.Source.Assembler6502
