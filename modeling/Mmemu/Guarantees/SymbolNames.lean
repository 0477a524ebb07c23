import Mmemu.Library.Runs
import Mmemu.Library.TwoWay
import Mmemu.Source.Symbols

/-!
# Symbols: the two maps

A table agrees with itself as long as no name is given a new address while it is the label
shown at its old one, and no name is removed while another one has the same address: the
entry left behind, or taken away, is the one by address.
-/
namespace Mmemu.Guarantees.SymbolNames
open Mmemu.Library.GuardedRun Mmemu.Library.TwoWay Mmemu.Source.SymbolTable

/-- A change of the table. -/
inductive Edit where
  | add (addr : BitVec 32) (label : String)
  | remove (label : String)
  | clear

def apply (t : SymbolTable) : Edit → SymbolTable
  | .add addr label => t.addSymbol addr label
  | .remove label => t.removeSymbol label
  | .clear => t.clear

def run (edits : List Edit) : SymbolTable := edits.foldl apply .empty

/-- The label of an address leads back to it, and a name's address has a label. -/
structure Consistent (t : SymbolTable) : Prop where
  back : Inverts t.m_addrToLabel t.m_labelToAddr
  shown : Covers t.m_addrToLabel t.m_labelToAddr

theorem consistent_empty : Consistent .empty := ⟨inverts_empty, covers_empty⟩

/-! ## Removed names -/

/-- After the last change that takes the name away, none brings it back. -/
def Removed (edits : List Edit) (label : String) : Prop :=
  ∃ before e after, edits = before ++ e :: after ∧ (e = .remove label ∨ e = .clear) ∧
    ∀ addr, Edit.add addr label ∉ after

theorem labelToAddr_taken (t : SymbolTable) {e : Edit} {label : String}
    (takes : e = .remove label ∨ e = .clear) : (apply t e).m_labelToAddr label = none := by
  rcases takes with rfl | rfl
  · unfold apply SymbolTable.removeSymbol
    dsimp only
    split
    next addr found => simp
    next none_ => exact none_
  · rfl

theorem labelToAddr_apply_none {t : SymbolTable} {label : String} (gone : t.m_labelToAddr label = none)
    {e : Edit} (other : ∀ addr, e ≠ .add addr label) : (apply t e).m_labelToAddr label = none := by
  cases e with
  | add addr label' =>
    have apart : label ≠ label' := by
      intro same
      exact other addr (by rw [same])
    simp [apply, SymbolTable.addSymbol, apart, gone]
  | remove label' =>
    unfold apply SymbolTable.removeSymbol
    dsimp only
    split
    next addr found =>
      by_cases same : label = label'
      · simp [same]
      · simp [same, gone]
    next => exact gone
  | clear => rfl

theorem labelToAddr_foldl_none {t : SymbolTable} {label : String}
    (gone : t.m_labelToAddr label = none) {edits : List Edit}
    (others : ∀ addr, Edit.add addr label ∉ edits) :
    (edits.foldl apply t).m_labelToAddr label = none := by
  induction edits generalizing t with
  | nil => exact gone
  | cons e rest ih =>
    have other : ∀ addr, e ≠ .add addr label := by
      intro addr same
      exact others addr (by simp [same])
    exact ih (labelToAddr_apply_none gone other) fun addr later =>
      others addr (List.mem_cons_of_mem e later)

theorem labelToAddr_removed {edits : List Edit} {label : String} (removed : Removed edits label) :
    (run edits).m_labelToAddr label = none := by
  obtain ⟨before, e, after, rfl, takes, others⟩ := removed
  unfold run
  rw [List.foldl_append, List.foldl_cons]
  exact labelToAddr_foldl_none (labelToAddr_taken _ takes) others

/-- What a table is to be after its changes. -/
structure Agrees (t : SymbolTable) (edits : List Edit) : Prop where
  consistent : Consistent t
  removed : ∀ label, Removed edits label →
    t.m_labelToAddr label = none ∧ ∀ addr, t.m_addrToLabel addr ≠ some label

theorem agrees_iff_consistent (edits : List Edit) :
    Agrees (run edits) edits ↔ Consistent (run edits) := by
  constructor
  · exact Agrees.consistent
  · intro consistent
    refine ⟨consistent, fun label removed => ?_⟩
    have gone := labelToAddr_removed removed
    refine ⟨gone, fun addr found => ?_⟩
    rw [consistent.back addr label found] at gone
    cases gone

/-! ## One change -/

/-- A name that moves is not the label of another address, and one that is removed has its
address alone. -/
def Keeps (t : SymbolTable) : Edit → Prop
  | .add addr label => Sole t.m_addrToLabel addr label
  | .remove label => ∀ addr, t.m_labelToAddr label = some addr → Sole t.m_labelToAddr label addr
  | .clear => True

theorem addSymbol_consistent_iff {t : SymbolTable} (h : Consistent t) (addr : BitVec 32)
    (label : String) :
    Consistent (t.addSymbol addr label) ↔ Sole t.m_addrToLabel addr label := by
  constructor
  · intro kept
    exact (h.back.update_iff addr label).mp kept.back
  · intro sole
    exact ⟨(h.back.update_iff addr label).mpr sole, h.shown.update addr label⟩

theorem removeSymbol_consistent_iff {t : SymbolTable} (h : Consistent t) (label : String) :
    Consistent (t.removeSymbol label) ↔
      ∀ addr, t.m_labelToAddr label = some addr → Sole t.m_labelToAddr label addr := by
  cases found : t.m_labelToAddr label with
  | none => simp [SymbolTable.removeSymbol, found, h]
  | some addr =>
    have alone := h.shown.erase_iff addr label
    simp only [SymbolTable.removeSymbol, found, Option.some.injEq, forall_eq']
    constructor
    · intro kept
      exact alone.mp kept.shown
    · intro sole
      exact ⟨h.back.erase found, alone.mpr sole⟩

theorem apply_consistent_iff {t : SymbolTable} (h : Consistent t) (e : Edit) :
    Consistent (apply t e) ↔ Keeps t e := by
  cases e with
  | add addr label => exact addSymbol_consistent_iff h addr label
  | remove label => exact removeSymbol_consistent_iff h label
  | clear => exact iff_of_true consistent_empty trivial

/-! ## Runs -/

/-- The table agrees with itself throughout a run exactly when every change meets the condition
in the state it is made in. -/
theorem agrees_throughout_iff (edits : List Edit) :
    (∀ before, before <+: edits → Agrees (run before) before) ↔
      Guarded apply Keeps .empty edits := by
  simp only [agrees_iff_consistent]
  exact forall_prefix_iff apply Keeps Consistent (fun _ e h => apply_consistent_iff h e)
    consistent_empty edits

/-- A name given a second address is still the label of the first, and removing it takes away
only the second. -/
theorem not_agrees_moved :
    ¬ Agrees (run [.add 0x1000 "main", .add 0x2000 "main", .remove "main"])
      [.add 0x1000 "main", .add 0x2000 "main", .remove "main"] := by
  intro agrees
  have stale : (run [.add 0x1000 "main", .add 0x2000 "main", .remove "main"]).m_addrToLabel 0x1000 =
      some "main" := by decide
  have back := agrees.consistent.back 0x1000 "main" stale
  revert back
  decide

end Mmemu.Guarantees.SymbolNames

/-!
# Source map: the two indexes

What a mapping leaves behind is the address of another line that had the same address: the
index by address leads from there to the new line only. As long as no address is taken
from a line that is found at it, the two indexes agree.
-/
namespace Mmemu.Guarantees.SourceLines
open Mmemu.Library.GuardedRun Mmemu.Library.TwoWay Mmemu.Source.SourceMap

/-- A change of the map. -/
inductive Edit where
  | add (addr : BitVec 32) (loc : SourceLocation)
  | clear

def apply (m : SourceMap) : Edit → SourceMap
  | .add addr loc => m.addMapping addr loc.file loc.line
  | .clear => m.clear

def run (edits : List Edit) : SourceMap := edits.foldl apply .empty

/-- The address a line is found at. -/
def located (m : SourceMap) (loc : SourceLocation) : Option (BitVec 32) := m.lines loc.file loc.line

/-- The lower of a line's address so far and another one. -/
def lowest (old : Option (BitVec 32)) (addr : BitVec 32) : BitVec 32 :=
  match old with
  | none => addr
  | some it => if addr < it then addr else it

theorem lines_addMapping (m : SourceMap) (addr : BitVec 32) (file : String) (line : ℤ) :
    (m.addMapping addr file line).lines file =
      Function.update (m.lines file) line (some (lowest (m.lines file line) addr)) := by
  unfold SourceMap.addMapping SourceMap.lines
  dsimp only
  rw [Function.update_self, Option.getD_some]
  change (match m.lines file line with
    | none => Function.update (m.lines file) line (some addr)
    | some it => if addr < it then Function.update (m.lines file) line (some addr)
        else m.lines file) =
      Function.update (m.lines file) line (some (lowest (m.lines file line) addr))
  cases old : m.lines file line with
  | none => rfl
  | some it =>
    unfold lowest
    dsimp only
    split
    next => rfl
    next => rw [← old, Function.update_eq_self]

theorem lines_addMapping_other (m : SourceMap) (addr : BitVec 32) {file file' : String} (line : ℤ)
    (other : file' ≠ file) : (m.addMapping addr file line).lines file' = m.lines file' := by
  simp [SourceMap.lines, SourceMap.addMapping, other]

theorem located_addMapping (m : SourceMap) (addr : BitVec 32) (loc : SourceLocation) :
    located (m.addMapping addr loc.file loc.line) =
      Function.update (located m) loc (some (lowest (located m loc) addr)) := by
  funext loc'
  by_cases same : loc' = loc
  · subst same
    rw [Function.update_self, located, lines_addMapping, Function.update_self]
    rfl
  · rw [Function.update_of_ne same]
    unfold located
    by_cases file : loc'.file = loc.file
    · have line : loc'.line ≠ loc.line := by
        intro line
        exact same (by cases loc; cases loc'; simp_all)
      rw [file, lines_addMapping, Function.update_of_ne line]
    · rw [lines_addMapping_other m addr loc.line file]

/-! ## One change -/

/-- The address is not that of another line. -/
def Keeps (m : SourceMap) : Edit → Prop
  | .add addr loc => Sole (located m) loc addr
  | .clear => True

def Inverse (m : SourceMap) : Prop := Inverts (located m) m.m_addrToSource

theorem inverse_empty : Inverse .empty := inverts_empty

theorem addMapping_inverse_iff {m : SourceMap} (h : Inverse m) (addr : BitVec 32)
    (loc : SourceLocation) :
    Inverse (m.addMapping addr loc.file loc.line) ↔ Sole (located m) loc addr := by
  unfold Inverse
  rw [located_addMapping]
  change Inverts _ (Function.update m.m_addrToSource addr (some loc)) ↔ _
  cases old : located m loc with
  | none => exact h.update_iff loc addr
  | some it =>
    by_cases lower : addr < it
    · rw [lowest, if_pos lower]
      exact h.update_iff loc addr
    · rw [lowest, if_neg lower, ← old, Function.update_eq_self]
      exact h.update_back_iff loc addr

theorem apply_inverse_iff {m : SourceMap} (h : Inverse m) (e : Edit) :
    Inverse (apply m e) ↔ Keeps m e := by
  cases e with
  | add addr loc => exact addMapping_inverse_iff h addr loc
  | clear => exact iff_of_true inverse_empty trivial

/-! ## Mappings that stand -/

/-- The mappings made since the map was last cleared. -/
def mappings (edits : List Edit) : List (BitVec 32 × SourceLocation) :=
  edits.foldl (fun made e => match e with
    | .add addr loc => made ++ [(addr, loc)]
    | .clear => []) []

/-- No later mapping gives the address to another line, and none gives the line a lower address. -/
def Stands (made : List (BitVec 32 × SourceLocation)) (addr : BitVec 32) (loc : SourceLocation) :
    Prop :=
  (∃ before after, made = before ++ (addr, loc) :: after ∧ ∀ loc', (addr, loc') ∈ after → loc' = loc) ∧
    ∀ addr', (addr', loc) ∈ made → addr ≤ addr'

def build (made : List (BitVec 32 × SourceLocation)) : SourceMap :=
  made.foldl (fun m e => m.addMapping e.1 e.2.file e.2.line) .empty

theorem run_eq_build (edits : List Edit) : run edits = build (mappings edits) := by
  induction edits using List.reverseRecOn with
  | nil => rfl
  | append_singleton edits e ih =>
    unfold run mappings
    rw [List.foldl_append, List.foldl_append]
    change apply (run edits) e = build (match e with
      | .add addr loc => mappings edits ++ [(addr, loc)]
      | .clear => [])
    rw [ih]
    cases e with
    | add addr loc =>
      unfold build
      rw [List.foldl_append]
      rfl
    | clear => rfl

/-- The last line an address was mapped to is the one found at it. -/
theorem addrToSource_build {addr : BitVec 32} {loc : SourceLocation}
    {before after : List (BitVec 32 × SourceLocation)}
    (later : ∀ loc', (addr, loc') ∈ after → loc' = loc) :
    (build (before ++ (addr, loc) :: after)).m_addrToSource addr = some loc := by
  induction after using List.reverseRecOn with
  | nil =>
    unfold build
    rw [List.foldl_append]
    exact Function.update_self ..
  | append_singleton after e ih =>
    have same : build (before ++ (addr, loc) :: (after ++ [e])) =
        (build (before ++ (addr, loc) :: after)).addMapping e.1 e.2.file e.2.line := by
      unfold build
      rw [← List.cons_append, ← List.append_assoc, List.foldl_append]
      rfl
    have before_ := ih fun loc' mem => later loc' (List.mem_append_left [e] mem)
    rw [same]
    by_cases again : e.1 = addr
    · have line : e.2 = loc := later e.2 (by simp [← again])
      rw [again, line]
      exact Function.update_self ..
    · exact (Function.update_of_ne (Ne.symm again) _ _).trans before_

/-- A line is found at the lowest address it was mapped to. -/
structure Lowest (m : SourceMap) (made : List (BitVec 32 × SourceLocation)) : Prop where
  mapped : ∀ loc addr, located m loc = some addr → (addr, loc) ∈ made
  least : ∀ loc addr, (addr, loc) ∈ made → ∃ it, located m loc = some it ∧ it ≤ addr

theorem lowest_le (old : Option (BitVec 32)) (addr : BitVec 32) :
    lowest old addr ≤ addr ∧ ∀ it, old = some it → lowest old addr ≤ it := by
  unfold lowest
  constructor
  · split
    next => exact BitVec.le_refl addr
    next it =>
      split
      next => exact BitVec.le_refl addr
      next higher => exact BitVec.not_lt.mp higher
  · rintro it rfl
    dsimp only
    split
    next lower => bv_omega
    next => exact BitVec.le_refl it

theorem Lowest.add {m : SourceMap} {made : List (BitVec 32 × SourceLocation)} (h : Lowest m made)
    (addr : BitVec 32) (loc : SourceLocation) :
    Lowest (m.addMapping addr loc.file loc.line) (made ++ [(addr, loc)]) := by
  constructor
  · intro loc' addr' found
    rw [located_addMapping] at found
    by_cases same : loc' = loc
    · subst same
      simp only [Function.update_self, Option.some.injEq] at found
      unfold lowest at found
      cases old : located m loc' with
      | none => simp_all
      | some it =>
        have was := h.mapped loc' it old
        simp only [old] at found
        split at found <;> simp_all
    · rw [Function.update_of_ne same] at found
      exact List.mem_append_left _ (h.mapped loc' addr' found)
  · intro loc' addr' mapped
    rw [located_addMapping]
    by_cases same : loc' = loc
    · subst same
      refine ⟨_, Function.update_self .., ?_⟩
      have bounds := lowest_le (located m loc') addr
      rcases List.mem_append.mp mapped with old | new
      · obtain ⟨it, found, le⟩ := h.least loc' addr' old
        exact BitVec.le_trans (bounds.2 it found) le
      · simp only [List.mem_singleton, Prod.mk.injEq] at new
        rw [new.1]
        exact bounds.1
    · rw [Function.update_of_ne same]
      rcases List.mem_append.mp mapped with old | new
      · exact h.least loc' addr' old
      · simp only [List.mem_singleton, Prod.mk.injEq] at new
        exact absurd new.2 same

theorem lowest_build (made : List (BitVec 32 × SourceLocation)) : Lowest (build made) made := by
  induction made using List.reverseRecOn with
  | nil => exact ⟨nofun, nofun⟩
  | append_singleton made e ih =>
    unfold build
    rw [List.foldl_append]
    exact ih.add e.1 e.2

theorem found_of_stands {made : List (BitVec 32 × SourceLocation)} {addr : BitVec 32}
    {loc : SourceLocation} (stands : Stands made addr loc) :
    (build made).m_addrToSource addr = some loc ∧ located (build made) loc = some addr := by
  obtain ⟨⟨before, after, rfl, later⟩, least⟩ := stands
  refine ⟨addrToSource_build later, ?_⟩
  have all := lowest_build (before ++ (addr, loc) :: after)
  obtain ⟨it, found, le⟩ := all.least loc addr (by simp)
  have other := least it (all.mapped loc it found)
  rw [found, BitVec.le_antisymm le other]

/-! ## Runs -/

/-- What a map is to be after its changes. -/
structure Agrees (m : SourceMap) (edits : List Edit) : Prop where
  inverse : Inverse m
  found : ∀ addr loc, Stands (mappings edits) addr loc →
    m.m_addrToSource addr = some loc ∧ located m loc = some addr

theorem agrees_iff_inverse (edits : List Edit) :
    Agrees (run edits) edits ↔ Inverse (run edits) := by
  refine ⟨Agrees.inverse, fun inverse => ⟨inverse, fun addr loc stands => ?_⟩⟩
  rw [run_eq_build]
  exact found_of_stands stands

/-- The two indexes agree throughout a run exactly when every mapping is made to an address
at which no other line is found. -/
theorem lines_agree_iff (edits : List Edit) :
    (∀ before, before <+: edits → Agrees (run before) before) ↔
      Guarded apply Keeps .empty edits := by
  simp only [agrees_iff_inverse]
  exact forall_prefix_iff apply Keeps Inverse (fun _ e h => apply_inverse_iff h e) inverse_empty
    edits

/-- Line 1 is still found at the address that was mapped to line 2. -/
theorem not_agrees_shared_address :
    ¬ Agrees (run [.add 0x1000 ⟨"a.s", 1⟩, .add 0x1000 ⟨"a.s", 2⟩])
      [.add 0x1000 ⟨"a.s", 1⟩, .add 0x1000 ⟨"a.s", 2⟩] := by
  intro agrees
  have back := agrees.inverse ⟨"a.s", 1⟩ 0x1000 (by decide)
  revert back
  decide

end Mmemu.Guarantees.SourceLines
