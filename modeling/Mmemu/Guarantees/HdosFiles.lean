import Mmemu.Library.Folders
import Mmemu.Library.Runs
import Mmemu.Source.Hypervisor

/-!
# HDOS and its root folder

Names of the guest are joined with the current folder as they are. As long as no name climbs
above the root from there, every path that is opened lies in the root folder.
-/
namespace Mmemu.Guarantees.HdosRoot
open Mmemu.Library.Folders Mmemu.Library.GuardedRun Mmemu.Library.LittleEndian
open Mmemu.Source.Cpu45gs02 Mmemu.Source.Hdos

/-! ## Paths of the host -/

def Inside (root path : Path) : Prop := (place slash dot path).Below (place slash dot root)

instance (root path : Path) : Decidable (Inside root path) :=
  inferInstanceAs (Decidable ((place slash dot path).Below (place slash dot root)))

/-- A folder as the handler keeps it. -/
def Ends (path : Path) : Prop := ∃ folder, path = folder ++ [slash]

/-- A name that, read from the current folder, goes up more often than it has gone down below the
root. -/
def Climbs (s : HdosHandler) : Prop :=
  stays ((place slash dot s.m_cwd).depth (place slash dot s.m_rootDir))
    (steps slash dot s.requestedName) = false

instance (s : HdosHandler) : Decidable (Climbs s) := inferInstanceAs (Decidable (_ = _))

section Names
variable {s : HdosHandler}

theorem place_join {folder name : Path} (ends : Ends folder) :
    place slash dot (folder ++ name) = (place slash dot folder).walk (steps slash dot name) := by
  obtain ⟨front, rfl⟩ := ends
  rw [List.append_assoc]
  exact place_append slash dot front name

theorem inside_join {root folder name : Path} (ends : Ends folder) (inside : Inside root folder)
    (holds : stays ((place slash dot folder).depth (place slash dot root))
      (steps slash dot name) = true) : Inside root (folder ++ name) := by
  unfold Inside
  rw [place_join ends]
  exact inside.walk holds

theorem ends_of_getLast {path : Path} (last : path.getLast? = some slash) : Ends path := by
  obtain ⟨front, rfl⟩ := List.getLast?_eq_some_iff.mp last
  exact ⟨front, rfl⟩

/-- Everything the handler keeps lies in the root folder. -/
structure Contained (s : HdosHandler) : Prop where
  root : Ends s.m_rootDir
  ends : Ends s.m_cwd
  cwd : Inside s.m_rootDir s.m_cwd
  found : s.m_fileFound = [] ∨ Inside s.m_rootDir s.m_fileFound

/-- The folder a name means, with its slash. -/
def target (s : HdosHandler) : Path :=
  if (s.m_cwd ++ s.requestedName).getLast? ≠ some slash then s.m_cwd ++ s.requestedName ++ [slash]
  else s.m_cwd ++ s.requestedName

theorem ends_target (s : HdosHandler) : Ends (target s) := by
  unfold target
  split
  · exact ⟨_, rfl⟩
  next last => exact ends_of_getLast (not_not.mp last)

theorem inside_target (h : Contained s) (holds : ¬Climbs s) : Inside s.m_rootDir (target s) := by
  have stays := Bool.of_not_eq_false holds
  unfold target
  split
  · rw [List.append_assoc]
    refine inside_join h.ends h.cwd ?_
    rw [steps_concat_sep, stays_concat_stay]
    exact stays
  · exact inside_join h.ends h.cwd stays

/-- What a name is found as. -/
theorem inside_fullPath (h : Contained s) {host : Host}
    (holds : host.exists_ (s.m_cwd ++ s.requestedName) = true → ¬Climbs s) :
    (∀ path, (s.fullPath host).1 = some path → Inside s.m_rootDir path) ∧
      ∀ path ∈ (s.fullPath host).2, Inside s.m_rootDir path := by
  unfold HdosHandler.fullPath
  dsimp only
  split
  next here =>
    refine ⟨?_, nofun⟩
    rintro path ⟨⟩
    exact inside_join h.ends h.cwd (Bool.of_not_eq_false (holds here))
  next =>
    constructor
    · intro path found
      obtain ⟨name, listed, rfl⟩ := Option.map_eq_some_iff.mp found
      have plain := host.names s.m_cwd name (List.mem_of_find?_eq_some listed)
      exact inside_join h.ends h.cwd (stays_part slash dot plain.1 plain.2 _)
    · intro path mem
      rw [List.mem_singleton.mp mem]
      exact h.cwd

end Names

/-! ## Calls -/

/-- A call that follows the name: to a folder, or to a file that the host has under it. -/
def follows (s : HdosHandler) (c : HdosHandler.Call) : Bool :=
  match c.func.toNat / 2 with
  | 0x06 => c.host.is_directory (target s)
  | 0x1A | 0x1B | 0x1F => c.host.exists_ (s.m_cwd ++ s.requestedName)
  | _ => false

/-- No name is followed above the root. -/
def Held (s : HdosHandler) (c : HdosHandler.Call) : Prop := follows s c = true → ¬Climbs s

instance (s : HdosHandler) (c : HdosHandler.Call) : Decidable (Held s c) :=
  inferInstanceAs (Decidable (_ → _))

/-- What a call may leave. -/
structure Confined (root : Path) (o : Outcome) : Prop where
  contained : Contained o.handler
  fixed : o.handler.m_rootDir = root
  opened : ∀ path ∈ o.opened, Inside root path

section Calls
variable {s s' : HdosHandler} {h : HypervisorState} {host : Host}

/-- The paths the handler keeps. -/
structure SamePaths (s s' : HdosHandler) : Prop where
  root : s'.m_rootDir = s.m_rootDir
  cwd : s'.m_cwd = s.m_cwd
  found : s'.m_fileFound = s.m_fileFound

theorem Contained.congr (inside : Contained s) (same : SamePaths s s') : Contained s' where
  root := same.root ▸ inside.root
  ends := same.cwd ▸ inside.ends
  cwd := by rw [same.root, same.cwd]; exact inside.cwd
  found := by rw [same.root, same.found]; exact inside.found

theorem confined_same (inside : Contained s) {o : Outcome} (same : SamePaths s o.handler)
    (opened : ∀ path ∈ o.opened, Inside s.m_rootDir path) : Confined s.m_rootDir o :=
  ⟨inside.congr same, same.root, opened⟩

theorem Confined.opening {root : Path} {o : Outcome} (held : Confined root o)
    {paths : List Path} (inside : ∀ path ∈ paths, Inside root path) :
    Confined root (o.opening paths) where
  contained := held.contained
  fixed := held.fixed
  opened := by
    intro path mem
    rcases List.mem_append.mp mem with here | later
    · exact inside path here
    · exact held.opened path later

theorem confined_reply (inside : Contained s) (same : SamePaths s s') (a : Byte) (carry : Bool) :
    Confined s.m_rootDir (s'.reply h a carry) :=
  confined_same inside same nofun

theorem confined_success (inside : Contained s) (same : SamePaths s s') (a : Byte) :
    Confined s.m_rootDir (s'.success h a) :=
  confined_same inside ⟨same.root, same.cwd, same.found⟩ nofun

theorem confined_failure (inside : Contained s) (error : Byte) :
    Confined s.m_rootDir (s.failure h error) :=
  confined_same inside ⟨rfl, rfl, rfl⟩ nofun

theorem inside_singleton {root path : Path} (inside : Inside root path) :
    ∀ other ∈ [path], Inside root other := by
  intro other mem
  rw [List.mem_singleton.mp mem]
  exact inside

theorem confined_virtFindFile (inside : Contained s)
    (held : host.exists_ (s.m_cwd ++ s.requestedName) = true → ¬Climbs s) :
    Confined s.m_rootDir (s.virtFindFile host h) := by
  have names := inside_fullPath inside held
  unfold HdosHandler.virtFindFile
  split
  · exact confined_failure inside _
  · split
    next opened found =>
      rw [found] at names
      exact (confined_failure inside _).opening names.2
    next path opened found =>
      rw [found] at names
      have kept : Confined s.m_rootDir ({ s with m_fileFound := path }.success h 0) :=
        ⟨⟨inside.root, inside.ends, inside.cwd, .inr (names.1 path rfl)⟩, rfl, nofun⟩
      exact kept.opening names.2

theorem confined_virtLoadFile (inside : Contained s)
    (held : host.exists_ (s.m_cwd ++ s.requestedName) = true → ¬Climbs s) (addrBase : ℕ) :
    Confined s.m_rootDir (s.virtLoadFile host h addrBase) := by
  have names := inside_fullPath inside held
  unfold HdosHandler.virtLoadFile
  split
  · exact confined_failure inside _
  · split
    next opened found =>
      rw [found] at names
      exact (confined_failure inside _).opening names.2
    next path opened found =>
      rw [found] at names
      have both : ∀ other ∈ opened ++ [path], Inside s.m_rootDir other := by
        intro other mem
        rcases List.mem_append.mp mem with searched | here
        · exact names.2 other searched
        · exact inside_singleton (names.1 path rfl) other here
      dsimp only
      split
      · exact (confined_failure inside _).opening both
      · have loaded := (confined_success (h := h) inside ⟨rfl, rfl, rfl⟩ 0).opening both
        exact ⟨loaded.contained, loaded.fixed, loaded.opened⟩

theorem confined_virtOpenFile (inside : Contained s) :
    Confined s.m_rootDir (s.virtOpenFile host h) := by
  unfold HdosHandler.virtOpenFile
  split
  · exact confined_failure inside _
  next there =>
    have found := inside_singleton (inside.found.resolve_left there)
    split
    · exact confined_failure inside _
    · split
      · exact (confined_failure inside _).opening found
      · refine Confined.opening (confined_success inside ?_ _) found
        exact ⟨rfl, rfl, rfl⟩

theorem confined_virtOpenDir (inside : Contained s) :
    Confined s.m_rootDir (s.virtOpenDir host h) := by
  have cwd := inside_singleton inside.cwd
  unfold HdosHandler.virtOpenDir
  split
  · exact confined_failure inside _
  · split
    · exact (confined_failure inside _).opening cwd
    · refine Confined.opening (confined_success inside ?_ _) cwd
      exact ⟨rfl, rfl, rfl⟩

theorem confined_virtCd (inside : Contained s)
    (held : host.is_directory (target s) = true → ¬Climbs s) :
    Confined s.m_rootDir (s.virtCd host h) := by
  unfold HdosHandler.virtCd
  split
  · exact confined_failure inside _
  · change Confined s.m_rootDir
      (if host.is_directory (target s) then { s with m_cwd := target s }.success h 0
        else s.failure h HDOSERR_FILE_NOT_FOUND)
    split
    next folder =>
      refine ⟨⟨inside.root, ends_target s, ?_, inside.found⟩, rfl, nofun⟩
      exact inside_target inside (held folder)
    · exact confined_failure inside _

theorem confined_virtReadFile (inside : Contained s) : Confined s.m_rootDir (s.virtReadFile h) := by
  unfold HdosHandler.virtReadFile
  split
  · split
    · exact confined_failure inside _
    · exact confined_same inside ⟨rfl, rfl, rfl⟩ nofun
  · exact confined_failure inside _

theorem confined_virtReadDir (inside : Contained s) :
    Confined s.m_rootDir (s.virtReadDir host h) := by
  unfold HdosHandler.virtReadDir
  split
  · split
    · refine confined_reply inside ?_ _ _
      exact ⟨rfl, rfl, rfl⟩
    · exact confined_same inside ⟨rfl, rfl, rfl⟩ nofun
  · exact confined_failure inside _

theorem confined_virtCloseFileOrDir (inside : Contained s) :
    Confined s.m_rootDir (s.virtCloseFileOrDir h) := by
  unfold HdosHandler.virtCloseFileOrDir
  split
  · exact confined_failure inside _
  · exact confined_failure inside _
  · refine confined_success inside ?_ _
    exact ⟨rfl, rfl, rfl⟩

theorem confined_virtSelectDrive (inside : Contained s) :
    Confined s.m_rootDir (s.virtSelectDrive h) := by
  unfold HdosHandler.virtSelectDrive
  split
  · exact confined_failure inside _
  · exact confined_reply inside ⟨rfl, rfl, rfl⟩ _ _

theorem confined_handleTrap (inside : Contained s) (c : HdosHandler.Call) (held : Held s c)
    {o : Outcome} (served : s.handleTrap c.host c.func c.hyper = some o) :
    Confined s.m_rootDir o := by
  unfold Held follows at held
  unfold HdosHandler.handleTrap at served
  split at served <;> rename_i call <;> cases served
  · exact confined_reply inside ⟨rfl, rfl, rfl⟩ _ _
  · exact confined_reply inside ⟨rfl, rfl, rfl⟩ _ _
  · exact confined_virtSelectDrive inside
  · exact confined_same inside ⟨rfl, rfl, rfl⟩ nofun
  · rw [call] at held
    exact confined_virtCd inside held
  · exact confined_virtOpenDir inside
  · exact confined_virtReadDir inside
  · exact confined_virtCloseFileOrDir inside
  · exact confined_virtCloseFileOrDir inside
  · exact confined_virtOpenFile inside
  · exact confined_virtReadFile inside
  · refine confined_success inside ?_ _
    exact ⟨rfl, rfl, rfl⟩
  · rw [call] at held
    exact confined_virtFindFile inside held
  · rw [call] at held
    exact confined_virtLoadFile inside held 0
  · exact confined_reply inside ⟨rfl, rfl, rfl⟩ _ _
  · refine ⟨⟨inside.root, inside.root, ?_, inside.found⟩, rfl, nofun⟩
    exact .refl _
  · rw [call] at held
    exact confined_virtLoadFile inside held 0x8000000

theorem confined_onCall (inside : Contained s) (c : HdosHandler.Call) (held : Held s c) :
    Confined s.m_rootDir (s.onCall c).2 := by
  unfold HdosHandler.onCall
  dsimp only
  split
  · unfold HdosHandler.captureSetname
    dsimp only
    split
    · exact confined_same inside ⟨rfl, rfl, rfl⟩ nofun
    · exact confined_same inside ⟨rfl, rfl, rfl⟩ nofun
  · split
    · exact confined_same inside ⟨rfl, rfl, rfl⟩ nofun
    · split
      next o served =>
        have bus : Contained { s with m_physBus := s.m_physBus || c.bus } :=
          inside.congr ⟨rfl, rfl, rfl⟩
        exact confined_handleTrap bus c held served
      · exact confined_same inside ⟨rfl, rfl, rfl⟩ nofun

end Calls

/-! ## Runs -/

/-- The handler, and every path that was opened so far. -/
structure Session where
  handler : HdosHandler
  opened : List Path

def Session.start (root overrideName : Path) : Session := ⟨.new root overrideName, []⟩

def Session.call (t : Session) (c : HdosHandler.Call) : Session :=
  let o := (t.handler.onCall c).2
  ⟨o.handler, t.opened ++ o.opened⟩

theorem contained_new {root : Path} (some_ : root ≠ []) (overrideName : Path) :
    Contained (HdosHandler.new root overrideName) := by
  have ends : Ends (HdosHandler.new root overrideName).m_rootDir := by
    unfold HdosHandler.new
    dsimp only
    split
    · exact ⟨root, rfl⟩
    next last => exact ends_of_getLast (not_not.mp fun other => last ⟨some_, other⟩)
  exact ⟨ends, ends, .refl _, .inl rfl⟩

/-- The root folder is the same place with its slash. -/
theorem place_new {root : Path} (some_ : root ≠ []) (overrideName : Path) :
    place slash dot (HdosHandler.new root overrideName).m_rootDir = place slash dot root := by
  unfold HdosHandler.new
  dsimp only
  split
  · exact place_concat_sep slash dot some_
  · rfl

/-- Whatever is called, as long as no name is followed above the root, the current folder and every
path that is opened lie in the root folder. -/
theorem inside_of_held (root overrideName : Path) (some_ : root ≠ []) (calls : List HdosHandler.Call)
    (run : Guarded Session.call (fun t c => Held t.handler c) (.start root overrideName) calls) :
    Inside root (calls.foldl Session.call (.start root overrideName)).handler.m_cwd ∧
      ∀ path ∈ (calls.foldl Session.call (.start root overrideName)).opened, Inside root path := by
  have same := place_new some_ overrideName
  have kept := foldl_invariant Session.call (fun t c => Held t.handler c)
    (fun t => Contained t.handler ∧
      t.handler.m_rootDir = (HdosHandler.new root overrideName).m_rootDir ∧
      ∀ path ∈ t.opened, Inside t.handler.m_rootDir path) ?_
    (.start root overrideName) calls ⟨contained_new some_ overrideName, rfl, nofun⟩ run
  · obtain ⟨contained, fixed, opened⟩ := kept
    have cwd := contained.cwd
    unfold Inside at cwd opened ⊢
    rw [fixed, same] at cwd opened
    exact ⟨cwd, opened⟩
  · rintro t c ⟨contained, fixed, opened⟩ held
    have step := confined_onCall contained c held
    have root_same : (t.call c).handler.m_rootDir = t.handler.m_rootDir := step.fixed
    refine ⟨step.contained, root_same.trans fixed, ?_⟩
    rw [root_same]
    intro path mem
    rcases List.mem_append.mp mem with before | now
    · exact opened path before
    · exact step.opened path now

/-- A name in page one is set, found and opened. -/
def opening (file name : Path) : List HdosHandler.Call :=
  [0x2E, 0x34, 0x18].map fun func =>
    { func
      hyper := { HypervisorState.zero with regY := 1 }
      memory := fun i => name.getD (i - 256) 0
      host := .single file []
      bus := true }

theorem inside_of_held_file :
    let t := (opening [0x72, 0x2F, 0x61] [0x41]).foldl Session.call (.start [0x72] [])
    Inside [0x72] t.handler.m_cwd ∧ ∀ path ∈ t.opened, Inside [0x72] path :=
  inside_of_held [0x72] [] (by decide) (opening [0x72, 0x2F, 0x61] [0x41]) (by decide)

/-- "../x" is opened beside the root. -/
theorem not_inside_climbing :
    ∃ path ∈ ((opening ([0x72, 0x2F] ++ [0x2E, 0x2E, 0x2F, 0x78]) [0x2E, 0x2E, 0x2F, 0x78]).foldl
      Session.call (.start [0x72] [])).opened, ¬Inside [0x72] path := by
  decide

end Mmemu.Guarantees.HdosRoot

/-!
# HDOS file transfers

Where the bytes of a loaded file go, and what a sequence of reads delivers. The Y register takes
no part in either: it is the middle byte of the destination and the high byte of the count.
-/
namespace Mmemu.Guarantees.HdosTransfers
open Mmemu.Library.LittleEndian Mmemu.Library.Splice Mmemu.Source.Cpu45gs02 Mmemu.Source.Hdos

/-! ## Loading -/

/-- The two calls that load a file, and where their 16 MB begin. -/
def loadBase (func : Byte) : Option ℕ :=
  match func.toNat / 2 with
  | 0x1B => some 0
  | 0x1F => some 0x8000000
  | _ => none

def destination (h : HypervisorState) : ℕ :=
  h.regX.toNat + h.regY.toNat * 256 + h.regZ.toNat * 65536

/-- Byte `i` at the destination and `i`, and nothing else. -/
def Landed (base : ℕ) (h : HypervisorState) (data : List Byte) (o : Outcome) : Prop :=
  o.phys = HdosHandler.writes (base + destination h) data ∧ o.user = []

/-- A destination on the first page of its bank, and a file that ends within the 16 MB. -/
def Aligned (h : HypervisorState) (data : List Byte) : Prop :=
  h.regY = 0 ∧ h.regX.toNat + h.regZ.toNat * 65536 + data.length ≤ 2 ^ 24

section Loading
variable {s : HdosHandler} {c : HdosHandler.Call} {base : ℕ} {path : Path} {data : List Byte}

theorem placed_iff {at_ at_' : ℕ → ℕ} :
    (data.mapIdx fun i b => (at_ i, b)) = (data.mapIdx fun i b => (at_' i, b)) ↔
      ∀ i < data.length, at_ i = at_' i := by
  constructor
  · intro same i inside
    have here := congrArg (·[i]?) same
    simp only [List.getElem?_mapIdx, List.getElem?_eq_getElem inside, Option.map_some,
      Option.some.injEq, Prod.mk.injEq] at here
    exact here.1
  · intro same
    apply List.ext_getElem?
    intro i
    rw [List.getElem?_mapIdx, List.getElem?_mapIdx]
    by_cases inside : i < data.length
    · rw [same i inside]
    · rw [List.getElem?_eq_none (Nat.le_of_not_lt inside)]
      rfl

theorem loaded (call : loadBase c.func = some base) :
    (s.onCall c).2 = { s with m_physBus := s.m_physBus || c.bus }.virtLoadFile c.host c.hyper base := by
  have other : ∀ func : Byte, loadBase func = none → c.func ≠ func := by
    intro func none_ same
    rw [same, none_] at call
    cases call
  unfold HdosHandler.onCall
  rw [if_neg (other 0x2E rfl), if_neg (other 0x3A rfl)]
  unfold loadBase at call
  unfold HdosHandler.handleTrap
  split at call
  next func =>
    cases call
    simp only [func]
  next func =>
    cases call
    simp only [func]
  · cases call

theorem phys_virtLoadFile (named : s.requestedName ≠ []) (found : (s.fullPath c.host).1 = some path)
    (opens : c.host.open_ path = some (some data)) (base : ℕ) :
    (s.virtLoadFile c.host c.hyper base).phys =
        (if s.m_physBus then data.mapIdx fun i b =>
          (base + (base + c.hyper.regX.toNat + c.hyper.regZ.toNat * 65536 + i) % 2 ^ 24, b) else []) ∧
      (s.virtLoadFile c.host c.hyper base).user = [] := by
  unfold HdosHandler.virtLoadFile
  rw [if_neg named]
  split
  next none_ =>
    rw [none_] at found
    cases found
  next path' opened found' =>
    rw [found'] at found
    obtain rfl := Option.some.inj found
    dsimp only
    rw [opens]
    exact ⟨rfl, rfl⟩

/-- Around the end of its 16 MB, a destination without its middle byte is the right one for every
byte exactly if nothing is left out and nothing goes around. -/
theorem reaches_iff (h : HypervisorState) (whole : base % 2 ^ 24 = 0) (some_ : data ≠ []) :
    (∀ i < data.length, base + (base + h.regX.toNat + h.regZ.toNat * 65536 + i) % 2 ^ 24 =
      base + destination h + i) ↔ Aligned h data := by
  have low := h.regX.isLt
  have high := h.regZ.isLt
  have count := List.length_pos_of_ne_nil some_
  have y_zero : h.regY = 0 ↔ h.regY.toNat = 0 := BitVec.toNat_eq
  unfold destination Aligned
  rw [y_zero]
  constructor
  · intro each
    have first := each 0 count
    have last := each (data.length - 1) (by omega)
    omega
  · rintro ⟨y, fits⟩ i inside
    omega

theorem base_whole (call : loadBase c.func = some base) : base % 2 ^ 24 = 0 := by
  unfold loadBase at call
  split at call <;> cases call <;> rfl

theorem landed_iff (call : loadBase c.func = some base) (named : s.requestedName ≠ [])
    (found : (s.fullPath c.host).1 = some path) (opens : c.host.open_ path = some (some data)) :
    Landed base c.hyper data (s.onCall c).2 ↔
      data = [] ∨ ((s.m_physBus || c.bus) = true ∧ Aligned c.hyper data) := by
  obtain ⟨phys, user⟩ := phys_virtLoadFile (s := { s with m_physBus := s.m_physBus || c.bus })
    named found opens base
  unfold Landed
  rw [loaded call, phys, user, and_iff_left rfl]
  by_cases none_ : data = []
  · subst none_
    simp [HdosHandler.writes]
  · rw [or_iff_right none_]
    cases s.m_physBus || c.bus with
    | false => simpa [HdosHandler.writes] using none_
    | true =>
      rw [← reaches_iff c.hyper (base_whole call) none_]
      simp only [if_true, true_and]
      exact placed_iff

end Loading

/-! ## Reading -/

def reads (func : Byte) : Bool := func.toNat / 2 == 0x0D

/-- What a run of calls answers. -/
def answers : HdosHandler → List HdosHandler.Call → List Outcome
  | _, [] => []
  | s, c :: rest => (s.onCall c).2 :: answers (s.onCall c).2.handler rest

/-- The count in X and Y. -/
def reported (o : Outcome) : ℕ := o.hyper.regX.toNat + o.hyper.regY.toNat * 256

def SECTOR_BUFFER : ℕ := 0xFFD6E00

/-- The next bytes of the file at the sector buffer, and their number in the registers. -/
def Answers (data : List Byte) (pos : ℕ) (o : Outcome) : Prop :=
  o.phys = HdosHandler.writes SECTOR_BUFFER (slice data pos 512) ∧ o.user = [] ∧
    reported o = (slice data pos 512).length

/-- Call after call, 512 bytes further each time. -/
def Delivers (data : List Byte) : ℕ → List Outcome → Prop
  | _, [] => True
  | pos, o :: rest => Answers data pos o ∧ Delivers data (pos + 512) rest

/-- The reported number of bytes of the buffer. -/
def received (o : Outcome) : List Byte := (o.phys.map Prod.snd).take (reported o)

/-- On entry Y is already the high byte of the number of bytes to come. -/
def Foretold (data : List Byte) (pos : ℕ) (bus : Bool) (c : HdosHandler.Call) : Prop :=
  (bus = true ∨ slice data pos 512 = []) ∧ c.hyper.regY.toNat = (slice data pos 512).length / 256

def ForetoldAll (data : List Byte) : ℕ → Bool → List HdosHandler.Call → Prop
  | _, _, [] => True
  | pos, bus, c :: rest =>
    Foretold data pos (bus || c.bus) c ∧ ForetoldAll data (pos + 512) (bus || c.bus) rest

/-- The current descriptor is a file that is read up to here. -/
def Reading (s : HdosHandler) (data : List Byte) (pos : ℕ) : Prop :=
  ∃ idx basePath, s.m_currentDesc = some idx ∧ s.m_descriptors idx = .file ⟨some data, pos⟩ basePath

section Reads
variable {s : HdosHandler} {c : HdosHandler.Call} {data : List Byte} {pos : ℕ}

theorem read_eq (call : reads c.func = true) :
    (s.onCall c).2 = { s with m_physBus := s.m_physBus || c.bus }.virtReadFile c.hyper := by
  have func := beq_iff_eq.mp call
  have other : ∀ func' : Byte, reads func' = false → c.func ≠ func' := by
    intro func' not_ same
    rw [same, not_] at call
    cases call
  unfold HdosHandler.onCall
  rw [if_neg (other 0x2E rfl), if_neg (other 0x3A rfl)]
  unfold HdosHandler.handleTrap
  simp only [func]

theorem reading_read (call : reads c.func = true) (reading : Reading s data pos) :
    Reading (s.onCall c).2.handler data (pos + (slice data pos 512).length) ∧
      (s.onCall c).2.handler.m_physBus = (s.m_physBus || c.bus) := by
  obtain ⟨idx, basePath, current, file⟩ := reading
  rw [read_eq call]
  unfold HdosHandler.virtReadFile
  simp only [current, file, Option.map_some]
  exact ⟨⟨idx, basePath, rfl, Function.update_self ..⟩, rfl⟩

theorem outcome_read (call : reads c.func = true) (reading : Reading s data pos) :
    (s.onCall c).2.phys =
        (if s.m_physBus || c.bus then HdosHandler.writes SECTOR_BUFFER (slice data pos 512) else []) ∧
      (s.onCall c).2.user = [] ∧
      reported (s.onCall c).2 = (slice data pos 512).length % 256 + c.hyper.regY.toNat * 256 := by
  obtain ⟨idx, basePath, current, file⟩ := reading
  rw [read_eq call]
  unfold HdosHandler.virtReadFile
  simp only [current, file, Option.map_some]
  exact ⟨rfl, trivial, rfl⟩

theorem writes_eq_nil {at_ : ℕ} {bytes : List Byte} :
    [] = HdosHandler.writes at_ bytes ↔ bytes = [] := by
  simp [HdosHandler.writes]

theorem call_answers_iff (call : reads c.func = true) (reading : Reading s data pos) :
    Answers data pos (s.onCall c).2 ↔ Foretold data pos (s.m_physBus || c.bus) c := by
  obtain ⟨phys, user, count⟩ := outcome_read call reading
  unfold Answers Foretold
  rw [phys, user, count, and_iff_right rfl]
  refine and_congr ?_ ?_
  · cases s.m_physBus || c.bus with
    | false => simpa using writes_eq_nil
    | true => simp
  · have split := Nat.mod_add_div (slice data pos 512).length 256
    omega

/-- Past the end there is nothing more to come. -/
theorem slice_further (data : List Byte) (pos : ℕ) :
    pos + (slice data pos 512).length = pos + 512 ∨
      data.length ≤ pos + (slice data pos 512).length := by
  unfold slice
  rw [List.length_take, List.length_drop]
  omega

theorem slice_past {n : ℕ} (past : data.length ≤ pos) : slice data pos n = [] := by
  rw [slice, List.drop_eq_nil_of_le past, List.take_nil]

/-- A run from a position at or past the place that is meant, which then is past the end. -/
theorem delivers_iff (calls : List HdosHandler.Call) {at_ : ℕ} (reading : Reading s data pos)
    (same : pos = at_ ∨ data.length ≤ pos ∧ pos ≤ at_)
    (all : ∀ c ∈ calls, reads c.func = true) :
    Delivers data at_ (answers s calls) ↔ ForetoldAll data at_ s.m_physBus calls := by
  induction calls generalizing s pos at_ with
  | nil => exact Iff.rfl
  | cons c rest ih =>
    have call := all c List.mem_cons_self
    have slices : slice data at_ 512 = slice data pos 512 := by
      rcases same with rfl | ⟨past, later⟩
      · rfl
      · rw [slice_past past, slice_past (past.trans later)]
    obtain ⟨reading', bus⟩ := reading_read call reading
    have here := call_answers_iff call reading
    unfold Answers Foretold at here
    unfold answers Delivers ForetoldAll Answers Foretold
    rw [slices]
    refine and_congr here ?_
    rw [← bus]
    refine ih reading' ?_ fun c' mem => all c' (List.mem_cons_of_mem _ mem)
    have further := slice_further data pos
    have most : (slice data pos 512).length ≤ 512 := List.length_take_le ..
    omega

theorem received_of_answers {o : Outcome} (answered : Answers data pos o) :
    received o = slice data pos 512 := by
  obtain ⟨phys, -, count⟩ := answered
  have bytes : o.phys.map Prod.snd = slice data pos 512 := by
    rw [phys, HdosHandler.writes]
    apply List.ext_getElem?
    intro i
    rw [List.getElem?_map, List.getElem?_mapIdx, Option.map_map]
    exact Option.map_id'
  rw [received, bytes, count, List.take_length]

/-- What a run delivers, put together. -/
theorem received_of_delivers {pos : ℕ} {os : List Outcome} (delivered : Delivers data pos os) :
    os.flatMap received = slice data pos (512 * os.length) := by
  induction os generalizing pos with
  | nil => simp [slice]
  | cons o rest ih =>
    rw [List.flatMap_cons, received_of_answers delivered.1, ih delivered.2, List.length_cons]
    have more : 512 * (rest.length + 1) = 512 + 512 * rest.length := by omega
    rw [more, slice, slice, slice, List.take_add, List.drop_drop]

theorem length_answers (s : HdosHandler) (calls : List HdosHandler.Call) :
    (answers s calls).length = calls.length := by
  induction calls generalizing s with
  | nil => rfl
  | cons c rest ih => exact congrArg (· + 1) (ih _)

end Reads

/-- A loaded file lands where the registers say exactly if it is empty, or Y is zero and the file
ends within the 16 MB. Reads deliver their bytes and counts exactly if Y holds each count's high
byte before the call; the bytes then are those of the file. -/
theorem transfers_iff (s : HdosHandler) :
    (∀ (c : HdosHandler.Call) (base : ℕ) (path : Path) (data : List Byte),
      loadBase c.func = some base → s.requestedName ≠ [] → (s.fullPath c.host).1 = some path →
        c.host.open_ path = some (some data) →
          (Landed base c.hyper data (s.onCall c).2 ↔
            data = [] ∨ ((s.m_physBus || c.bus) = true ∧ Aligned c.hyper data))) ∧
    ∀ (data : List Byte) (pos : ℕ) (calls : List HdosHandler.Call), Reading s data pos →
      (∀ c ∈ calls, reads c.func = true) →
        (Delivers data pos (answers s calls) ↔ ForetoldAll data pos s.m_physBus calls) ∧
          (Delivers data pos (answers s calls) →
            (answers s calls).flatMap received = slice data pos (512 * calls.length)) := by
  constructor
  · intro c base path data call named found opens
    exact landed_iff call named found opens
  · intro data pos calls reading all
    refine ⟨delivers_iff calls reading (.inl rfl) all, fun delivered => ?_⟩
    rw [received_of_delivers delivered, length_answers]

/-! ## One file -/

/-- A handler that was asked for the one file of its root folder, and holds it open. -/
def asked (data : List Byte) : HdosHandler :=
  { HdosHandler.new [0x72] [0x66] with
    m_currentDesc := some ⟨0, by decide⟩
    m_descriptors := fun _ => .file ⟨some data, 0⟩ [0x72, slash] }

def call (func x y : Byte) (data : List Byte) : HdosHandler.Call :=
  { func
    hyper := { HypervisorState.zero with regX := x, regY := y }
    memory := fun _ => 0
    host := .single [0x72, slash, 0x66] data
    bus := true }

theorem transfers_iff_small :
    Landed 0 (call 0x36 0x34 0 [1, 2]).hyper [1, 2] ((asked [1, 2]).onCall (call 0x36 0x34 0 [1, 2])).2 ∧
      (answers (asked [1, 2]) [call 0x1A 0 0 [1, 2]]).flatMap received = [1, 2] := by
  have transfers := transfers_iff (asked [1, 2])
  constructor
  · refine (transfers.1 _ 0 [0x72, slash, 0x66] [1, 2] rfl (by decide) (by decide) (by decide)).mpr ?_
    exact .inr ⟨rfl, rfl, by decide⟩
  · have read := transfers.2 [1, 2] 0 [call 0x1A 0 0 [1, 2]] ⟨_, _, rfl, rfl⟩ (by decide)
    exact read.2 (read.1.mpr ⟨⟨.inl rfl, by decide⟩, trivial⟩)

/-- With $12 in Y the file is loaded a page low, and with zero in Y a full block counts as none. -/
theorem not_transferred :
    ¬Landed 0 (call 0x36 0x34 0x12 [1]).hyper [1] ((asked [1]).onCall (call 0x36 0x34 0x12 [1])).2 ∧
      ¬Delivers (List.replicate 512 1) 0
        (answers (asked (List.replicate 512 1)) [call 0x1A 0 0 (List.replicate 512 1)]) := by
  constructor
  · have found : ((asked [1]).fullPath (.single [0x72, slash, 0x66] [1])).1 =
        some [0x72, slash, 0x66] := by decide
    rw [landed_iff rfl (by decide) found (by decide)]
    rintro (none_ | ⟨-, y, -⟩)
    · cases none_
    · cases y
  · have reading : Reading (asked (List.replicate 512 1)) (List.replicate 512 1) 0 :=
      ⟨_, _, rfl, rfl⟩
    rw [delivers_iff _ reading (.inl rfl) fun c mem => by rw [List.mem_singleton.mp mem]; rfl]
    rintro ⟨⟨-, count⟩, -⟩
    have full : (slice (List.replicate 512 (1 : Byte)) 0 512).length = 512 :=
      length_slice (by rw [List.length_replicate])
    rw [full] at count
    cases count

end Mmemu.Guarantees.HdosTransfers
