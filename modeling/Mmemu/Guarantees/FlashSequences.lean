import Mmemu.Guarantees.CartImages

/-!
# The flash's command sequences

What the flash holds changes at the end of a complete sequence of stores only. A sequence takes
effect when none was begun before it: one that is begun within another falls with that.
-/
namespace Mmemu.Guarantees.FlashSequences
open Mmemu.Library.CheckedBuffer Mmemu.Source.C128Carts

/-- A store: an address of the 512 KB and a byte. -/
abbrev Write := BitVec 19 × Byte

/-- A byte at an address of which 15 bits count. -/
def Is (low : BitVec 32) (b : Byte) (w : Write) : Prop := w.1.setWidth 32 &&& 0x7FFF = low ∧ w.2 = b

instance (low : BitVec 32) (b : Byte) (w : Write) : Decidable (Is low b w) := inferInstanceAs (Decidable (_ ∧ _))

/-- The three stores before the data of a byte program. -/
def programSequence : List (Write → Prop) := [Is 0x5555 0xAA, Is 0x2AAA 0x55, Is 0x5555 0xA0]

/-- The five stores before the last one of an erase. -/
def eraseSequence : List (Write → Prop) :=
  [Is 0x5555 0xAA, Is 0x2AAA 0x55, Is 0x5555 0x80, Is 0x5555 0xAA, Is 0x2AAA 0x55]

/-- The last stores were those of a sequence. -/
def Ended (sequence : List (Write → Prop)) (stores : List Write) : Prop :=
  ∃ before last, stores = before ++ last ∧ List.Forall₂ (fun is_ w => is_ w) sequence last

def contents (f : Flash040) (a : BitVec 19) : Byte := f.data.item a.toNat

/-- The addressed sector of 64 KB is $FF, the others as they were. -/
def sectorErased (c : BitVec 19 → Byte) (a x : BitVec 19) : Byte :=
  if x.toNat / 0x10000 = a.toNat / 0x10000 then 0xFF else c x

/-- What a store may do to the contents, by the stores before it. -/
inductive Changes (stores : List Write) (a : BitVec 19) (b : Byte) (c c' : BitVec 19 → Byte) : Prop where
  | nothing (same : c' = c)
  | program (ended : Ended programSequence stores) (done : c' = Function.update c a (c a &&& b))
  | chip (ended : Ended eraseSequence stores) (last : Is 0x5555 0x10 (a, b)) (done : c' = fun _ => 0xFF)
  | sector (ended : Ended eraseSequence stores) (last : b = 0x30) (done : c' = sectorErased c a)

/-! ## Runs -/

inductive Event where
  | store (a : BitVec 19) (b : Byte)
  | read (a : BitVec 19)
  | reset

/-- The flash, and the stores since the last reset. -/
structure Session where
  flash : Flash040
  stores : List Write

def Session.start : Session := ⟨.new, []⟩

def Session.step (s : Session) : Event → Option Session
  | .store a b => (s.flash.store (a.setWidth 32) b).map fun f => ⟨f, s.stores ++ [(a, b)]⟩
  | .read a => (s.flash.read (a.setWidth 32)).map fun r => { s with flash := r.2 }
  | .reset => some ⟨s.flash.reset, []⟩

/-- The sequence that has led to a state. -/
def before : FlashState → List (Write → Prop)
  | .READ | .AUTOSELECT | .PROGRAM_ERROR => []
  | .MAGIC1 => programSequence.take 1
  | .MAGIC2 => programSequence.take 2
  | .PROGRAM => programSequence
  | .ERASE1 => eraseSequence.take 3
  | .ERASE2 => eraseSequence.take 4
  | .ERASE_SELECT => eraseSequence

structure Traced (s : Session) : Prop where
  sized : s.flash.data.size = 0x80000
  base : s.flash.m_base = .READ ∨ s.flash.m_base = .AUTOSELECT
  ended : Ended (before s.flash.m_state) s.stores

theorem ended_nil (stores : List Write) : Ended [] stores := ⟨stores, [], (List.append_nil _).symm, .nil⟩

theorem Ended.push {sequence : List (Write → Prop)} {stores : List Write} {w : Write} {is_ : Write → Prop}
    (ended : Ended sequence stores) (here : is_ w) : Ended (sequence ++ [is_]) (stores ++ [w]) := by
  obtain ⟨before, last, rfl, all⟩ := ended
  exact ⟨before, last ++ [w], List.append_assoc .., List.rel_append all (.cons here .nil)⟩

theorem low_addr (a : BitVec 19) : (a.setWidth 32).toNat = a.toNat ∧ (a.setWidth 32).toNat < 0x80000 := by
  have low := a.isLt
  rw [BitVec.toNat_setWidth]
  omega

/-- A sector's first address. -/
theorem sector_base {n : ℕ} (low : n < 0x80000) : n &&& 0x70000 = n / 0x10000 * 0x10000 := by
  have mask : 0x70000 = (2 ^ 3 - 1) <<< 16 := by decide
  have whole : n / 0x10000 * 0x10000 = (n >>> 16) <<< 16 := by
    rw [Nat.shiftRight_eq_div_pow, Nat.shiftLeft_eq]
  rw [mask, whole]
  apply Nat.eq_of_testBit_eq
  intro i
  rw [Nat.testBit_and, Nat.testBit_shiftLeft, Nat.testBit_shiftLeft, Nat.testBit_two_pow_sub_one,
    Nat.testBit_shiftRight]
  by_cases above : 16 ≤ i
  · rw [Nat.add_sub_cancel' above]
    by_cases inside : i - 16 < 3
    · simp [above, inside]
    · have clear : n.testBit i = false :=
        Nat.testBit_lt_two_pow (low.trans_le (Nat.pow_le_pow_right Nat.two_pos (by omega : 19 ≤ i)))
      simp [clear]
  · simp [above]

theorem fill_sector {data : Bytes} (sized : data.size = 0x80000) (a : BitVec 19) : ∃ data' : Bytes,
    data.fill (a.setWidth 32 &&& 0x70000).toNat ((a.setWidth 32 &&& 0x70000).toNat + 0x10000) 0xFF = some data' ∧
      data'.size = 0x80000 ∧
      (fun x : BitVec 19 => data'.item x.toNat) = sectorErased (fun x => data.item x.toNat) a := by
  have first : (a.setWidth 32 &&& 0x70000).toNat = a.toNat / 0x10000 * 0x10000 := by
    rw [BitVec.toNat_and, (low_addr a).1]
    exact sector_base a.isLt
  have room : (a.setWidth 32 &&& 0x70000).toNat + 0x10000 ≤ data.size := by
    rw [sized]
    exact CartImages.sector_lt _
  refine ⟨_, if_pos ⟨Nat.le_add_right .., room⟩, sized, ?_⟩
  funext x
  unfold sectorErased
  rw [first]
  dsimp only
  split <;> split
  · rfl
  · omega
  · omega
  · rfl

theorem fill_chip {data : Bytes} (sized : data.size = 0x80000) : ∃ data' : Bytes,
    data.fill 0 data.size 0xFF = some data' ∧ data'.size = 0x80000 ∧
      (fun x : BitVec 19 => data'.item x.toNat) = fun _ => 0xFF := by
  refine ⟨_, if_pos ⟨Nat.zero_le _, le_rfl⟩, sized, ?_⟩
  funext x
  exact if_pos ⟨Nat.zero_le _, by rw [sized]; exact x.isLt⟩

/-- The last stores of the three commands. -/
theorem store_program {f : Flash040} (sized : f.data.size = 0x80000) (state : f.m_state = .PROGRAM) (a : BitVec 19)
    (b : Byte) : ∃ f', f.store (a.setWidth 32) b = some f' ∧ f'.data.size = 0x80000 ∧ f'.m_base = f.m_base ∧
      (f'.m_state = f.m_base ∨ f'.m_state = .PROGRAM_ERROR) ∧
      contents f' = Function.update (contents f) a (contents f a &&& b) := by
  have low : (a.setWidth 32).toNat < f.data.size := by
    rw [sized]
    exact (low_addr a).2
  unfold Flash040.store
  rw [state]
  dsimp only
  rw [Buffer.get_of_lt low, Option.bind_eq_bind, Option.bind_some, Buffer.set_of_lt low]
  refine ⟨_, rfl, sized, rfl, ?_, ?_⟩
  · dsimp only
    split
    · exact .inl rfl
    · exact .inr rfl
  · funext x
    unfold contents
    dsimp only
    rw [(low_addr a).1]
    by_cases here : x = a
    · rw [here, Function.update_self, Function.update_self]
    · rw [Function.update_of_ne here, Function.update_of_ne fun same => here (BitVec.eq_of_toNat_eq same)]

theorem store_chip {f : Flash040} (sized : f.data.size = 0x80000) (state : f.m_state = .ERASE_SELECT) {a : BitVec 19}
    {b : Byte} (last : Is 0x5555 0x10 (a, b)) : ∃ f', f.store (a.setWidth 32) b = some f' ∧
      f'.data.size = 0x80000 ∧ f'.m_base = f.m_base ∧ f'.m_state = f.m_base ∧ contents f' = fun _ => 0xFF := by
  obtain ⟨data, is_data, same, erased⟩ := fill_chip sized
  have place : a.setWidth 32 &&& 0x7FFF = 0x5555 ∧ b = 0x10 := last
  unfold Flash040.store
  rw [state]
  dsimp only
  rw [if_pos place, is_data]
  exact ⟨_, rfl, same, rfl, rfl, erased⟩

theorem store_sector {f : Flash040} (sized : f.data.size = 0x80000) (state : f.m_state = .ERASE_SELECT)
    (a : BitVec 19) : ∃ f', f.store (a.setWidth 32) 0x30 = some f' ∧ f'.data.size = 0x80000 ∧ f'.m_base = f.m_base ∧
      f'.m_state = f.m_base ∧ contents f' = sectorErased (contents f) a := by
  obtain ⟨data, is_data, same, erased⟩ := fill_sector sized a
  have other : ¬(a.setWidth 32 &&& 0x7FFF = 0x5555 ∧ (0x30 : Byte) = 0x10) := fun both => absurd both.2 (by decide)
  unfold Flash040.store
  rw [state]
  dsimp only
  rw [if_neg other, if_pos rfl, is_data]
  exact ⟨_, rfl, same, rfl, rfl, erased⟩

/-- A store, in every state: the trace goes on, and the contents change at the end of a sequence
only. -/
theorem store_traced {s : Session} (traced : Traced s) (a : BitVec 19) (b : Byte) :
    ∃ s', s.step (.store a b) = some s' ∧ Traced s' ∧
      Changes s.stores a b (contents s.flash) (contents s'.flash) := by
  obtain ⟨⟨data, state, base, program, toggle⟩, stores⟩ := s
  obtain ⟨sized, idle, ended⟩ := traced
  dsimp only at sized idle ended
  have ended_base : Ended (before base) (stores ++ [(a, b)]) := by
    rcases idle with rfl | rfl <;> exact ended_nil _
  -- the contents stay, in a state that the stores have led to
  have quiet (state' base' : FlashState) (idle' : base' = .READ ∨ base' = .AUTOSELECT)
      (ended' : Ended (before state') (stores ++ [(a, b)])) :
      ∃ s', some (⟨⟨data, state', base', program, toggle⟩, stores ++ [(a, b)]⟩ : Session) = some s' ∧
        Traced s' ∧ Changes stores a b (contents ⟨data, state, base, program, toggle⟩) (contents s'.flash) :=
    ⟨_, rfl, ⟨sized, idle', ended'⟩, .nothing rfl⟩
  unfold Session.step Flash040.store
  dsimp only
  cases state with
  | READ =>
    dsimp only
    split
    next unlock => exact quiet .MAGIC1 base idle (ended.push unlock)
    next => exact quiet .READ base idle (ended_nil _)
  | MAGIC1 =>
    dsimp only
    split
    next second => exact quiet .MAGIC2 base idle (ended.push second)
    next => exact quiet base base idle ended_base
  | MAGIC2 =>
    dsimp only
    split
    next => exact quiet base base idle ended_base
    next third =>
      have place := not_not.mp third
      unfold Flash040.select
      dsimp only
      split
      next => exact quiet .AUTOSELECT .AUTOSELECT (.inr rfl) (ended_nil _)
      next => exact quiet .READ .READ (.inl rfl) (ended_nil _)
      next is_b => exact quiet .PROGRAM base idle (ended.push ⟨place, BitVec.eq_of_toNat_eq is_b⟩)
      next is_b => exact quiet .ERASE1 base idle (ended.push ⟨place, BitVec.eq_of_toNat_eq is_b⟩)
      next => exact quiet base base idle ended_base
  | PROGRAM =>
    obtain ⟨f, run, sized', base', state', done⟩ :=
      @store_program ⟨data, .PROGRAM, base, program, toggle⟩ sized rfl a b
    refine ⟨_, congrArg _ run, ⟨sized', base' ▸ idle, ?_⟩, .program ended done⟩
    rcases state' with same | error
    · exact same ▸ ended_base
    · exact error ▸ ended_nil _
  | ERASE1 =>
    dsimp only
    split
    next fourth => exact quiet .ERASE2 base idle (ended.push fourth)
    next => exact quiet base base idle ended_base
  | ERASE2 =>
    dsimp only
    split
    next fifth => exact quiet .ERASE_SELECT base idle (ended.push fifth)
    next => exact quiet base base idle ended_base
  | ERASE_SELECT =>
    by_cases whole : Is 0x5555 0x10 (a, b)
    · obtain ⟨f, run, sized', base', state', done⟩ :=
        @store_chip ⟨data, .ERASE_SELECT, base, program, toggle⟩ sized rfl _ _ whole
      exact ⟨_, congrArg _ run, ⟨sized', base' ▸ idle, state' ▸ ended_base⟩, .chip ended whole done⟩
    · by_cases is_b : b = 0x30
      · subst is_b
        obtain ⟨f, run, sized', base', state', done⟩ :=
          @store_sector ⟨data, .ERASE_SELECT, base, program, toggle⟩ sized rfl a
        exact ⟨_, congrArg _ run, ⟨sized', base' ▸ idle, state' ▸ ended_base⟩, .sector ended rfl done⟩
      · have neither : ¬(a.setWidth 32 &&& 0x7FFF = 0x5555 ∧ b = 0x10) := whole
        dsimp only
        rw [if_neg neither, if_neg is_b]
        exact quiet base base idle ended_base
  | PROGRAM_ERROR | AUTOSELECT =>
    dsimp only
    by_cases unlock : a.setWidth 32 &&& 0x7FFF = 0x5555 ∧ b = 0xAA
    · rw [if_pos unlock, if_neg (by rw [unlock.2]; decide)]
      exact quiet .MAGIC1 base idle (ended.push unlock)
    · rw [if_neg unlock]
      split
      next => exact quiet .READ .READ (.inl rfl) (ended_nil _)
      next => exact quiet _ base idle (ended_nil _)

/-- The session after a read. -/
def Session.toggled (s : Session) (toggle : Byte) : Session := { s with flash := { s.flash with m_toggle := toggle } }

theorem Traced.toggled {s : Session} (traced : Traced s) (toggle : Byte) : Traced (s.toggled toggle) :=
  ⟨traced.sized, traced.base, traced.ended⟩

theorem step_store {s : Session} {a : BitVec 19} {b : Byte} {f : Flash040}
    (stored : s.flash.store (a.setWidth 32) b = some f) : s.step (.store a b) = some ⟨f, s.stores ++ [(a, b)]⟩ :=
  congrArg (Option.map fun f => (⟨f, s.stores ++ [(a, b)]⟩ : Session)) stored

theorem read_traced {s : Session} (traced : Traced s) (a : BitVec 19) :
    ∃ toggle, s.step (.read a) = some (s.toggled toggle) := by
  have got : s.flash.data.get (a.setWidth 32).toNat = some (s.flash.data.item (a.setWidth 32).toNat) :=
    Buffer.get_of_lt (by rw [traced.sized]; exact (low_addr a).2)
  unfold Session.step Flash040.read
  dsimp only
  rw [got]
  split
  · split
    · exact ⟨s.flash.m_toggle, rfl⟩
    · split
      · exact ⟨s.flash.m_toggle, rfl⟩
      · split <;> exact ⟨s.flash.m_toggle, rfl⟩
  · exact ⟨s.flash.m_toggle ^^^ 0x40, rfl⟩
  · exact ⟨s.flash.m_toggle, rfl⟩

/-- What an event may do to the contents. -/
def Keeps (s s' : Session) : Event → Prop
  | .store a b => Changes s.stores a b (contents s.flash) (contents s'.flash)
  | .read _ | .reset => contents s'.flash = contents s.flash

theorem step_traced {s : Session} (traced : Traced s) (e : Event) :
    ∃ s', s.step e = some s' ∧ Traced s' ∧ Keeps s s' e := by
  cases e with
  | store a b => exact store_traced traced a b
  | read a =>
    obtain ⟨toggle, run⟩ := read_traced traced a
    exact ⟨_, run, traced.toggled toggle, rfl⟩
  | reset => exact ⟨_, rfl, ⟨traced.sized, .inl rfl, ended_nil _⟩, rfl⟩

theorem run_traced {s : Session} (traced : Traced s) (es : List Event) :
    ∃ s', es.foldlM Session.step s = some s' ∧ Traced s' := by
  induction es generalizing s with
  | nil => exact ⟨s, rfl, traced⟩
  | cons e rest ih =>
    obtain ⟨s', one, traced', -⟩ := step_traced traced e
    obtain ⟨s'', run, traced''⟩ := ih traced'
    refine ⟨s'', ?_, traced''⟩
    rw [List.foldlM_cons, one]
    exact run

theorem start_traced : Traced .start := ⟨rfl, .inl rfl, ended_nil _⟩

/-! ## Complete sequences -/

/-- No sequence has begun. -/
def Idle (f : Flash040) : Prop := f.m_state = .READ ∨ f.m_state = .AUTOSELECT ∨ f.m_state = .PROGRAM_ERROR

/-- Stores that are a complete sequence, and what it does to the contents. -/
inductive Complete (c : BitVec 19 → Byte) : List Write → (BitVec 19 → Byte) → Prop where
  | program {ws : List Write} (unlock : List.Forall₂ (fun is_ w => is_ w) programSequence ws) (a : BitVec 19)
    (b : Byte) : Complete c (ws ++ [(a, b)]) (Function.update c a (c a &&& b))
  | chip {ws : List Write} (unlock : List.Forall₂ (fun is_ w => is_ w) eraseSequence ws) (w : Write)
    (last : Is 0x5555 0x10 w) : Complete c (ws ++ [w]) fun _ => 0xFF
  | sector {ws : List Write} (unlock : List.Forall₂ (fun is_ w => is_ w) eraseSequence ws) (a : BitVec 19) :
    Complete c (ws ++ [(a, 0x30)]) (sectorErased c a)

/-- The stores of events without a reset; `none` when there is one. -/
def storesOf : List Event → Option (List Write)
  | [] => some []
  | .store a b :: rest => (storesOf rest).map ((a, b) :: ·)
  | .read _ :: rest => storesOf rest
  | .reset :: _ => none

/-- In a state, a store of a sequence leads to the next one and does nothing else. -/
def Advances (state : FlashState) (is_ : Write → Prop) (next : FlashState) : Prop :=
  ∀ (f : Flash040) (a : BitVec 19) (b : Byte), f.m_state = state → is_ (a, b) →
    f.store (a.setWidth 32) b = some { f with m_state := next }

/-- The states that a sequence leads through. -/
inductive Path : FlashState → List (Write → Prop) → FlashState → Prop where
  | nil (state : FlashState) : Path state [] state
  | cons {state next last : FlashState} {is_ : Write → Prop} {rest : List (Write → Prop)}
    (first : Advances state is_ next) (path : Path next rest last) : Path state (is_ :: rest) last

theorem idle_advances {state : FlashState} (idle : state = .READ ∨ state = .AUTOSELECT ∨ state = .PROGRAM_ERROR) :
    Advances state (Is 0x5555 0xAA) .MAGIC1 := by
  intro f a b is_state here
  have unlock : a.setWidth 32 &&& 0x7FFF = 0x5555 ∧ b = 0xAA := here
  have no_reset : ¬b = 0xF0 := by rw [unlock.2]; decide
  unfold Flash040.store
  rw [is_state]
  rcases idle with rfl | rfl | rfl <;> dsimp only <;> rw [if_pos unlock]
  · rw [if_neg no_reset]
  · rw [if_neg no_reset]

theorem magic1_advances : Advances .MAGIC1 (Is 0x2AAA 0x55) .MAGIC2 := by
  intro f a b is_state here
  unfold Flash040.store
  rw [is_state]
  dsimp only
  rw [if_pos (show a.setWidth 32 &&& 0x7FFF = 0x2AAA ∧ b = 0x55 from here)]

theorem magic2_advances {b₀ : Byte} {next : FlashState}
    (selects : ∀ f : Flash040, f.select b₀ = { f with m_state := next }) :
    Advances .MAGIC2 (Is 0x5555 b₀) next := by
  intro f a b is_state here
  obtain ⟨place, rfl⟩ := here
  unfold Flash040.store
  rw [is_state]
  dsimp only
  rw [if_neg (not_not.mpr place), selects]

theorem erase1_advances : Advances .ERASE1 (Is 0x5555 0xAA) .ERASE2 := by
  intro f a b is_state here
  unfold Flash040.store
  rw [is_state]
  dsimp only
  rw [if_pos (show a.setWidth 32 &&& 0x7FFF = 0x5555 ∧ b = 0xAA from here)]

theorem erase2_advances : Advances .ERASE2 (Is 0x2AAA 0x55) .ERASE_SELECT := by
  intro f a b is_state here
  unfold Flash040.store
  rw [is_state]
  dsimp only
  rw [if_pos (show a.setWidth 32 &&& 0x7FFF = 0x2AAA ∧ b = 0x55 from here)]

section
variable {state : FlashState} (idle : state = .READ ∨ state = .AUTOSELECT ∨ state = .PROGRAM_ERROR)
include idle

theorem program_path : Path state programSequence .PROGRAM :=
  .cons (idle_advances idle) (.cons magic1_advances (.cons (magic2_advances fun _ => rfl) (.nil _)))

theorem erase_path : Path state eraseSequence .ERASE_SELECT :=
  .cons (idle_advances idle) (.cons magic1_advances (.cons (magic2_advances fun _ => rfl)
    (.cons erase1_advances (.cons erase2_advances (.nil _)))))

end

/-- The first store of the events is taken in the same state, after some reads. -/
theorem peel {s : Session} (traced : Traced s) {es : List Event} {a : BitVec 19} {b : Byte} {ws : List Write}
    (stores : storesOf es = some ((a, b) :: ws)) : ∃ toggle rest, storesOf rest = some ws ∧
      es.foldlM Session.step s =
        ((s.toggled toggle).step (.store a b)).bind (rest.foldlM Session.step) := by
  induction es generalizing s with
  | nil => cases stores
  | cons e rest ih =>
    cases e with
    | store a' b' =>
      obtain ⟨ws', is_ws, same⟩ := Option.map_eq_some_iff.mp stores
      obtain ⟨here, rfl⟩ := List.cons.inj same
      obtain ⟨rfl, rfl⟩ := Prod.mk.inj here
      exact ⟨s.flash.m_toggle, rest, is_ws, List.foldlM_cons ..⟩
    | read a' =>
      obtain ⟨toggle, run⟩ := read_traced traced a'
      obtain ⟨toggle', rest', is_ws, same⟩ := ih (traced.toggled toggle) stores
      refine ⟨toggle', rest', is_ws, ?_⟩
      rw [List.foldlM_cons, run]
      exact same
    | reset => cases stores

/-- Without a store the contents stay. -/
theorem calm {s : Session} (traced : Traced s) {es : List Event} (stores : storesOf es = some []) :
    ∃ s', es.foldlM Session.step s = some s' ∧ contents s'.flash = contents s.flash := by
  induction es generalizing s with
  | nil => exact ⟨s, rfl, rfl⟩
  | cons e rest ih =>
    cases e with
    | store a b =>
      obtain ⟨_, _, wrong⟩ := Option.map_eq_some_iff.mp stores
      cases wrong
    | read a =>
      obtain ⟨toggle, run⟩ := read_traced traced a
      obtain ⟨s', run', same⟩ := ih (traced.toggled toggle) stores
      refine ⟨s', ?_, same⟩
      rw [List.foldlM_cons, run]
      exact run'
    | reset => cases stores

/-- The stores of a sequence lead along its path; the contents stay. -/
theorem walk {state last : FlashState} {sequence : List (Write → Prop)} (path : Path state sequence last)
    {ws more : List Write} (all : List.Forall₂ (fun is_ w => is_ w) sequence ws) {s : Session} (traced : Traced s)
    (here : s.flash.m_state = state) {es : List Event} (stores : storesOf es = some (ws ++ more)) :
    ∃ s' rest, es.foldlM Session.step s = rest.foldlM Session.step s' ∧ storesOf rest = some more ∧ Traced s' ∧
      s'.flash.m_state = last ∧ contents s'.flash = contents s.flash := by
  induction path generalizing ws s es with
  | nil =>
    cases all
    exact ⟨s, es, rfl, stores, traced, here, rfl⟩
  | cons first _ ih =>
    cases all with
    | @cons _ w _ ws' is_w all' =>
      obtain ⟨a, b⟩ := w
      obtain ⟨toggle, rest, stores', run⟩ := peel traced stores
      have one := step_store (first (s.toggled toggle).flash a b here is_w)
      obtain ⟨s₁, run₁, traced₁, -⟩ := store_traced (traced.toggled toggle) a b
      rw [one] at run run₁
      obtain rfl := Option.some.inj run₁
      obtain ⟨s', rest', run', stores'', traced', state', same⟩ := ih all' traced₁ rfl stores'
      exact ⟨s', rest', run.trans run', stores'', traced', state', same⟩

/-- A complete sequence from an idle state takes effect. -/
theorem complete_done {s : Session} (traced : Traced s) (idle : Idle s.flash) {es : List Event} {ws : List Write}
    {c : BitVec 19 → Byte} (stores : storesOf es = some ws) (complete : Complete (contents s.flash) ws c) :
    ∃ s', es.foldlM Session.step s = some s' ∧ contents s'.flash = c := by
  -- the last store, in the state that the others have led to
  have finish {s₁ : Session} {rest : List Event} {a : BitVec 19} {b : Byte} (traced₁ : Traced s₁)
      (run : es.foldlM Session.step s = rest.foldlM Session.step s₁) (one : storesOf rest = some [(a, b)])
      (done : ∀ toggle, ∃ f', (s₁.toggled toggle).flash.store (a.setWidth 32) b = some f' ∧ contents f' = c) :
      ∃ s', es.foldlM Session.step s = some s' ∧ contents s'.flash = c := by
    obtain ⟨toggle, rest', none_left, run'⟩ := peel traced₁ one
    obtain ⟨f', stored, is_c⟩ := done toggle
    obtain ⟨s₂, run₂, traced₂, -⟩ := store_traced (traced₁.toggled toggle) a b
    rw [step_store stored] at run' run₂
    obtain rfl := Option.some.inj run₂
    obtain ⟨s', run₃, same⟩ := calm traced₂ none_left
    refine ⟨s', ?_, same.trans is_c⟩
    rw [run, run']
    exact run₃
  cases complete with
  | program unlock a b =>
    obtain ⟨s₁, rest, run, one, traced₁, state, same⟩ := walk (program_path idle) unlock traced rfl stores
    refine finish traced₁ run one fun toggle => ?_
    obtain ⟨f', stored, -, -, -, done⟩ := @store_program (s₁.toggled toggle).flash traced₁.sized state a b
    exact ⟨f', stored, done.trans (same ▸ rfl)⟩
  | chip unlock w last =>
    obtain ⟨s₁, rest, run, one, traced₁, state, same⟩ := walk (erase_path idle) unlock traced rfl stores
    obtain ⟨a, b⟩ := w
    refine finish traced₁ run one fun toggle => ?_
    obtain ⟨f', stored, -, -, -, done⟩ := @store_chip (s₁.toggled toggle).flash traced₁.sized state _ _ last
    exact ⟨f', stored, done⟩
  | sector unlock a =>
    obtain ⟨s₁, rest, run, one, traced₁, state, same⟩ := walk (erase_path idle) unlock traced rfl stores
    refine finish traced₁ run one fun toggle => ?_
    obtain ⟨f', stored, -, -, -, done⟩ := @store_sector (s₁.toggled toggle).flash traced₁.sized state a
    exact ⟨f', stored, done.trans (same ▸ rfl)⟩

/-- After any run: what a store does to the contents is nothing or the end of a complete sequence,
reads and resets do nothing to them, and from an idle state a complete sequence takes effect. -/
theorem flash_sequences (es : List Event) : ∃ s, es.foldlM Session.step .start = some s ∧
    (∀ e, ∃ s', s.step e = some s' ∧ Keeps s s' e) ∧
    (Idle s.flash → ∀ more ws c, storesOf more = some ws → Complete (contents s.flash) ws c →
      ∃ s', more.foldlM Session.step s = some s' ∧ contents s'.flash = c) := by
  obtain ⟨s, run, traced⟩ := run_traced start_traced es
  refine ⟨s, run, fun e => ?_, fun idle more ws c stores complete => complete_done traced idle stores complete⟩
  obtain ⟨s', one, -, keeps⟩ := step_traced traced e
  exact ⟨s', one, keeps⟩

/-- Programs $00 at 0. -/
def programZero : List Event := [.store 0x5555 0xAA, .store 0x2AAA 0x55, .store 0x5555 0xA0, .store 0 0]

/-- After one unlock store the flash reads as memory, and a complete sequence does nothing: its
first store only ends the one begun before. -/
theorem begun_within_another : ∃ s s', Session.start.step (.store 0x5555 0xAA) = some s ∧
    (∀ a : BitVec 19, s.flash.read (a.setWidth 32) = some (contents s.flash a, s.flash)) ∧
    (∃ ws, storesOf programZero = some ws ∧
      Complete (contents s.flash) ws (Function.update (contents s.flash) 0 (contents s.flash 0 &&& 0))) ∧
    programZero.foldlM Session.step s = some s' ∧ contents s.flash 0 &&& 0 = 0 ∧ contents s'.flash 0 = 0xFF := by
  refine ⟨_, _, rfl, fun a => ?_, ⟨[(0x5555, 0xAA), (0x2AAA, 0x55), (0x5555, 0xA0), (0, 0)], rfl, ?_⟩, rfl, ?_, rfl⟩
  · have got : (Buffer.new 0x80000 (0xFF : Byte)).get (a.setWidth 32).toNat = some 0xFF :=
      Buffer.get_of_lt (low_addr a).2
    unfold Flash040.read
    dsimp only
    show ((Buffer.new 0x80000 (0xFF : Byte)).get (a.setWidth 32).toNat).map _ = _
    rw [got]
    rfl
  · have unlock : List.Forall₂ (fun is_ w => is_ w) programSequence
        [(0x5555, 0xAA), (0x2AAA, 0x55), (0x5555, 0xA0)] :=
      .cons ⟨by decide, rfl⟩ (.cons ⟨by decide, rfl⟩ (.cons ⟨by decide, rfl⟩ .nil))
    exact .program unlock 0 0
  · exact BitVec.and_zero

end Mmemu.Guarantees.FlashSequences
