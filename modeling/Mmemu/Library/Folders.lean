import Mathlib.Data.List.Basic
import Mathlib.Tactic.Common

/-!
# Places in a tree of folders

A path is a text with separators. What it names is found by following it: an empty part or a
dot stays, two dots go up and any other part goes down. A path that does not climb out of the
folder it is followed from ends below it.
-/
namespace Mmemu.Library.Folders

/-- A place: from the top of the tree or from a folder, so far up and then down these names, the
last one first. -/
structure Place (ν : Type*) where
  absolute : Bool
  ups : ℕ
  names : List ν

inductive Step (ν : Type*) where
  | stay
  | up
  | down (name : ν)

section Walk
variable {ν : Type*}

def Place.go (p : Place ν) : Step ν → Place ν
  | .stay => p
  | .down name => { p with names := name :: p.names }
  | .up =>
    match p.names with
    | _ :: names => { p with names }
    -- above the top is the top
    | [] => if p.absolute then p else { p with ups := p.ups + 1 }

def Place.walk (p : Place ν) (steps : List (Step ν)) : Place ν := steps.foldl Place.go p

/-- The folder itself, or below it. -/
def Place.Below (p root : Place ν) : Prop :=
  p.absolute = root.absolute ∧ p.ups = root.ups ∧ root.names <:+ p.names

instance Place.Below.decidable [DecidableEq ν] (p root : Place ν) : Decidable (p.Below root) :=
  inferInstanceAs (Decidable (_ ∧ _ ∧ _))

/-- How many names below. -/
def Place.depth (p root : Place ν) : ℕ := p.names.length - root.names.length

/-- From this deep below, the steps never go up more often than that. -/
def stays : ℕ → List (Step ν) → Bool
  | _, [] => true
  | depth, .stay :: rest => stays depth rest
  | depth, .down _ :: rest => stays (depth + 1) rest
  | 0, .up :: _ => false
  | depth + 1, .up :: rest => stays depth rest

theorem stays_concat_stay (depth : ℕ) (steps : List (Step ν)) :
    stays depth (steps ++ [.stay]) = stays depth steps := by
  induction steps generalizing depth with
  | nil => rfl
  | cons step rest ih =>
    cases step with
    | stay => exact ih depth
    | down name => exact ih (depth + 1)
    | up =>
      cases depth with
      | zero => rfl
      | succ depth => exact ih depth

theorem Place.Below.refl (p : Place ν) : p.Below p := ⟨rfl, rfl, List.suffix_refl _⟩

theorem Place.walk_append (p : Place ν) (steps steps' : List (Step ν)) :
    p.walk (steps ++ steps') = (p.walk steps).walk steps' := List.foldl_append ..

theorem Place.Below.walk {p root : Place ν} (below : p.Below root) {steps : List (Step ν)}
    (holds : stays (p.depth root) steps = true) : (p.walk steps).Below root := by
  induction steps generalizing p with
  | nil => exact below
  | cons step rest ih =>
    obtain ⟨absolute, ups, names, split⟩ := below
    have deep : p.depth root = names.length := by
      rw [Place.depth, ← split, List.length_append]
      omega
    rw [deep] at holds
    have further : ∀ q : Place ν, q.absolute = p.absolute → q.ups = p.ups →
        ∀ names', names' ++ root.names = q.names → stays names'.length rest = true →
          (q.walk rest).Below root := by
      intro q same same' names' split' holds'
      refine ih ⟨same.trans absolute, same'.trans ups, names', split'⟩ ?_
      rwa [Place.depth, ← split', List.length_append, Nat.add_sub_cancel]
    change ((p.go step).walk rest).Below root
    cases step with
    | stay => exact further p rfl rfl names split holds
    | down name => exact further _ rfl rfl (name :: names) (congrArg (name :: ·) split) holds
    | up =>
      cases names with
      | nil => cases holds
      | cons name names =>
        have up : p.go .up = { p with names := names ++ root.names } := by
          unfold Place.go
          rw [← split]
          rfl
        rw [up]
        exact further _ rfl rfl names rfl holds

end Walk

/-! ## Paths -/

section Paths
variable {α : Type*} [DecidableEq α] (sep dot : α)

/-- The parts between the separators. -/
def parts : List α → List (List α)
  | [] => [[]]
  | c :: rest =>
    if c = sep then [] :: parts rest
    else match parts rest with
      | [] => [[c]]
      | part :: others => (c :: part) :: others

def stepOf (part : List α) : Step (List α) :=
  if part = [] ∨ part = [dot] then .stay
  else if part = [dot, dot] then .up
  else .down part

def steps (path : List α) : List (Step (List α)) := (parts sep path).map (stepOf dot)

/-- Where a path starts. -/
def origin (path : List α) : Place (List α) := ⟨path.head? == some sep, 0, []⟩

def place (path : List α) : Place (List α) := (origin sep path).walk (steps sep dot path)

theorem parts_ne_nil (path : List α) : parts sep path ≠ [] := by
  cases path with
  | nil => simp [parts]
  | cons c rest =>
    unfold parts
    split
    · simp
    · split <;> simp

theorem parts_append_sep (path rest : List α) :
    parts sep (path ++ sep :: rest) = parts sep path ++ parts sep rest := by
  induction path with
  | nil => simp [parts]
  | cons c path ih =>
    rw [List.cons_append, parts, parts, ih]
    split
    · rfl
    · cases found : parts sep path with
      | nil => exact absurd found (parts_ne_nil sep path)
      | cons part others => rfl

theorem steps_concat_sep (path : List α) :
    steps sep dot (path ++ [sep]) = steps sep dot path ++ [.stay] := by
  rw [steps, parts_append_sep, List.map_append]
  rfl

/-- What follows a folder is followed from there. -/
theorem place_append (folder rest : List α) :
    place sep dot (folder ++ sep :: rest) =
      (place sep dot (folder ++ [sep])).walk (steps sep dot rest) := by
  have same : origin sep (folder ++ sep :: rest) = origin sep (folder ++ [sep]) := by
    cases folder <;> rfl
  have ends := steps_concat_sep sep dot folder
  have split : steps sep dot (folder ++ sep :: rest) = steps sep dot folder ++ steps sep dot rest := by
    rw [steps, parts_append_sep, List.map_append]
    rfl
  rw [place, place, same, ends, split, Place.walk_append, Place.walk_append]
  rfl

/-- A folder is the same place with a separator after it. -/
theorem place_concat_sep {folder : List α} (some_ : folder ≠ []) :
    place sep dot (folder ++ [sep]) = place sep dot folder := by
  have same : origin sep (folder ++ [sep]) = origin sep folder := by
    cases folder with
    | nil => exact absurd rfl some_
    | cons c rest => rfl
  rw [place, same, steps_concat_sep, Place.walk_append]
  rfl

theorem parts_plain {part : List α} (plain : sep ∉ part) : parts sep part = [part] := by
  induction part with
  | nil => rfl
  | cons c rest ih =>
    obtain ⟨other, later⟩ := not_or.mp (List.mem_cons.not.mp plain)
    rw [parts, if_neg (Ne.symm other), ih later]

/-- A part without a separator does not climb, unless it is two dots. -/
theorem stays_part {part : List α} (plain : sep ∉ part) (no_up : part ≠ [dot, dot]) (depth : ℕ) :
    stays depth (steps sep dot part) = true := by
  rw [steps, parts_plain sep plain, List.map_singleton, stepOf]
  split
  · rfl
  · rfl

end Paths

end Mmemu.Library.Folders
