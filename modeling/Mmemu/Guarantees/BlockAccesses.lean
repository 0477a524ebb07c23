import Mmemu.Library.WordBytes
import Mmemu.Source.Vdc8563

/-!
# VDC block operations

A fill or a copy that a write of R30 starts leaves what as many single accesses through R31 do.
-/
namespace Mmemu.Guarantees.BlockAccesses
open Mmemu.Library.CheckedBuffer Mmemu.Library.WordBytes Mmemu.Source.Vdc8563

/-! ## Single accesses -/

/-- Selects a register and writes it. -/
def poke (r x : Byte) (v : Vdc) : Option Vdc := (v.ioWrite 0xD600 r).bind fun v => v.ioWrite 0xD601 x

/-- Writes an address to a pair of registers. -/
def point (r : Byte) (p : BitVec 16) (v : Vdc) : Option Vdc :=
  (poke r ((p >>> 8).setWidth 8) v).bind (poke (r + 1) (p.setWidth 8))

/-- Reads the byte at the source address and writes it at the destination, through R31, and advances both. -/
def copyByte (v : Vdc) : Option Vdc := do
  let dst := word v.m_regs 18
  let src := word v.m_regs 32
  let v ← (← point 18 src v).ioWrite 0xD600 31
  let (x, v) ← v.ioRead 0xD601
  let v ← poke 31 x (← point 18 dst v)
  point 32 (src + 1) v

/-- Accesses of one kind, one after another. -/
def repeated (step : Vdc → Option Vdc) : ℕ → Vdc → Option Vdc
  | 0, v => some v
  | n + 1, v => (repeated step n v).bind step

/-- A count of 0 means 256. -/
def blockLength (count : Byte) : ℕ := if count ≠ 0 then count.toNat else 256

/-- The chips: 16 KB or 64 KB. -/
def Fitted (v : Vdc) : Prop := v.m_ram.size = 0x4000 ∨ v.m_ram.size = 0x10000

/-! ## Addresses and registers -/

theorem map_lt {v : Vdc} (fitted : Fitted v) (addr : BitVec 16) : v.map addr < v.m_ram.size := by
  unfold Vdc.map
  dsimp only
  obtain small | large := fitted
  · rw [if_neg (by simp [Vdc.ram64k, small]), small]
    split
    next =>
      rw [BitVec.toNat_or, BitVec.toNat_ushiftRight, Nat.shiftRight_eq_div_pow]
      have low := (toNat_and_le (addr.setWidth 32) 0x00FF#32).trans (by decide : _ ≤ 0xFF)
      have high := (toNat_and_le (addr.setWidth 32) 0x7E00#32).trans (by decide : _ ≤ 0x7E00)
      exact Nat.or_lt_two_pow (n := 14) (by omega) (by omega)
    next => exact Nat.lt_of_le_of_lt (toNat_and_le _ _) (by decide)
  · rw [if_pos (by simp [Vdc.ram64k, large]), large]
    split
    next =>
      have wide := addr.isLt
      rw [BitVec.toNat_setWidth]
      omega
    next =>
      rw [BitVec.toNat_or, BitVec.toNat_or, BitVec.toNat_shiftLeft, Nat.shiftLeft_eq]
      have low := (toNat_and_le (addr.setWidth 32) 0x80FF#32).trans (by decide : _ ≤ 0x80FF)
      have high := (toNat_and_le (addr.setWidth 32) 0x3F00#32).trans (by decide : _ ≤ 0x3F00)
      have bit := (toNat_and_le (addr.setWidth 32) 0x0100#32).trans (by decide : _ ≤ 0x0100)
      exact Nat.or_lt_two_pow (n := 16) (Nat.or_lt_two_pow (by omega) (by omega)) (by omega)

theorem join (p : BitVec 16) : (p >>> 8).setWidth 8 ++ p.setWidth 8 = p := by
  refine BitVec.eq_of_toNat_eq ?_
  rw [toNat_join, BitVec.toNat_setWidth, BitVec.toNat_setWidth, BitVec.toNat_ushiftRight, Nat.shiftRight_eq_div_pow]
  omega

theorem word_setWord (regs : ℕ → Byte) (r : ℕ) (p : BitVec 16) : word (setWord regs r p) r = p := by
  unfold word setWord
  rw [Function.update_self, Function.update_of_ne (by omega), Function.update_self]
  exact join p

theorem setWord_of_ne {regs : ℕ → Byte} {r i : ℕ} {p : BitVec 16} (high : i ≠ r) (low : i ≠ r + 1) :
    setWord regs r p i = regs i := by
  unfold setWord
  rw [Function.update_of_ne low, Function.update_of_ne high]

theorem setWord_word (regs : ℕ → Byte) (r : ℕ) : setWord regs r (word regs r) = regs := by
  have high : (word regs r >>> 8).setWidth 8 = regs r := by
    unfold word
    refine BitVec.eq_of_toNat_eq ?_
    have low := (regs (r + 1)).isLt
    have wide := (regs r).isLt
    rw [BitVec.toNat_setWidth, BitVec.toNat_ushiftRight, toNat_join, Nat.shiftRight_eq_div_pow]
    omega
  have low : (word regs r).setWidth 8 = regs (r + 1) := by
    unfold word
    refine BitVec.eq_of_toNat_eq ?_
    have low := (regs (r + 1)).isLt
    rw [BitVec.toNat_setWidth, toNat_join]
    omega
  unfold setWord
  rw [high, low, Function.update_eq_self, Function.update_eq_self]

theorem setWord_twice (regs : ℕ → Byte) (r : ℕ) (p q : BitVec 16) :
    setWord (setWord regs r p) r q = setWord regs r q := by
  unfold setWord
  rw [Function.update_comm (by omega : r ≠ r + 1), Function.update_idem, Function.update_comm (by omega : r + 1 ≠ r),
    Function.update_idem]

theorem setWord_update {regs : ℕ → Byte} {r i : ℕ} (p : BitVec 16) (x : Byte) (high : i ≠ r) (low : i ≠ r + 1) :
    setWord (Function.update regs i x) r p = Function.update (setWord regs r p) i x := by
  unfold setWord
  rw [Function.update_comm high, Function.update_comm low]

theorem setWord_comm (regs : ℕ → Byte) (p q : BitVec 16) :
    setWord (setWord regs 18 p) 32 q = setWord (setWord regs 32 q) 18 p := by
  unfold setWord
  rw [Function.update_comm (by decide : (19 : ℕ) ≠ 32), Function.update_comm (by decide : (18 : ℕ) ≠ 32),
    Function.update_comm (by decide : (19 : ℕ) ≠ 33), Function.update_comm (by decide : (18 : ℕ) ≠ 33)]

theorem word_apart {regs : ℕ → Byte} {r i : ℕ} (p : BitVec 16) (apart : r + 1 < i ∨ i + 1 < r) :
    word (setWord regs i p) r = word regs r := by
  unfold word
  rw [setWord_of_ne (by omega) (by omega), setWord_of_ne (by omega) (by omega)]

theorem word_update {regs : ℕ → Byte} {r i : ℕ} (x : Byte) (high : r ≠ i) (low : r + 1 ≠ i) :
    word (Function.update regs i x) r = word regs r := by
  unfold word
  rw [Function.update_of_ne high, Function.update_of_ne low]

theorem advance (p : BitVec 16) (n : ℕ) : p + BitVec.ofNat 16 n + 1 = p + BitVec.ofNat 16 (n + 1) := by
  rw [BitVec.ofNat_add, BitVec.add_assoc]
  rfl

/-! ## Single accesses, as they leave the state -/

variable {v : Vdc}

/-- What the accesses change. -/
def put (v : Vdc) (ram : Buffer Byte) (regs : ℕ → Byte) (i : Byte) : Vdc :=
  { v with m_ram := ram, m_regs := regs, m_index := i }

section put
variable (ram : Buffer Byte) (regs : ℕ → Byte) (i : Byte)

@[simp] theorem put_ram : (put v ram regs i).m_ram = ram := rfl
@[simp] theorem put_regs : (put v ram regs i).m_regs = regs := rfl
@[simp] theorem put_put (ram' : Buffer Byte) (regs' : ℕ → Byte) (i' : Byte) :
    put (put v ram regs i) ram' regs' i' = put v ram' regs' i' := rfl

end put

theorem map_put {ram : Buffer Byte} {regs : ℕ → Byte} (size : ram.size = v.m_ram.size) (mode : regs 28 = v.m_regs 28)
    (i : Byte) (addr : BitVec 16) : (put v ram regs i).map addr = v.map addr := by
  unfold Vdc.map Vdc.ram64k
  rw [put_ram, put_regs, size, mode]

theorem fitted_put {ram : Buffer Byte} (fitted : Fitted v) (size : ram.size = v.m_ram.size) (regs : ℕ → Byte)
    (i : Byte) :
    Fitted (put v ram regs i) := by
  unfold Fitted
  rw [put_ram, size]
  exact fitted

theorem select (r : Byte) : v.ioWrite 0xD600 r = some (put v v.m_ram v.m_regs (r &&& 0x3F)) := if_pos (by decide)

/-- An address goes to registers that nothing else hangs on. -/
theorem point_eq {r : ℕ} (plain : r = 18 ∨ r = 32) (p : BitVec 16) :
    point (BitVec.ofNat 8 r) p v = some (put v v.m_ram (setWord v.m_regs r p) (BitVec.ofNat 8 (r + 1))) := by
  obtain rfl | rfl := plain <;> rfl

/-- A buffer with one byte written. -/
def stored (ram : Buffer Byte) (i : ℕ) (x : Byte) : Buffer Byte := { ram with item := Function.update ram.item i x }

theorem poke_data (fitted : Fitted v) (x : Byte) :
    poke 31 x v = some (put v (stored v.m_ram (v.map (word v.m_regs 18)) x)
      (setWord (Function.update v.m_regs 31 x) 18 (word v.m_regs 18 + 1)) 31) := by
  have started : poke 31 x v = (put v v.m_ram (Function.update v.m_regs 31 x) 31).writeData := rfl
  have mode : Function.update v.m_regs 31 x 28 = v.m_regs 28 := Function.update_of_ne (show 28 ≠ 31 by decide) ..
  rw [started]
  unfold Vdc.writeData
  dsimp only
  rw [put_regs, word_update x (by decide) (by decide), map_put rfl mode, put_ram, Buffer.set_of_lt (map_lt fitted _),
    Function.update_self]
  rfl

theorem read_data (fitted : Fitted v) (ready : v.m_index = 31) :
    v.ioRead 0xD601 = some (v.m_ram.item (v.map (word v.m_regs 18)),
      put v v.m_ram (setWord v.m_regs 18 (word v.m_regs 18 + 1)) v.m_index) := by
  unfold Vdc.ioRead
  dsimp only
  rw [if_pos ⟨by decide, ready⟩, Buffer.get_of_lt (map_lt fitted _)]
  rfl

/-! ## Filling -/

/-- The RAM after the first writes of a fill. -/
theorem filled (fitted : Fitted v) (n : ℕ) :
    ∃ ram i, (List.range n).foldlM (fun (ram : Buffer Byte) (i : ℕ) =>
        ram.set (v.map (word v.m_regs 18 + BitVec.ofNat 16 i)) (v.m_regs 31)) v.m_ram = some ram ∧
      ram.size = v.m_ram.size ∧ repeated (poke 31 (v.m_regs 31)) n v =
        some (put v ram (setWord v.m_regs 18 (word v.m_regs 18 + BitVec.ofNat 16 n)) i) := by
  induction n with
  | zero =>
    refine ⟨v.m_ram, v.m_index, rfl, rfl, ?_⟩
    rw [show word v.m_regs 18 + BitVec.ofNat 16 0 = _ from BitVec.add_zero _, setWord_word]
    rfl
  | succ n ih =>
    obtain ⟨ram, i, ran, size, so_far⟩ := ih
    have mode : setWord v.m_regs 18 (word v.m_regs 18 + BitVec.ofNat 16 n) 28 = v.m_regs 28 :=
      setWord_of_ne (by decide) (by decide)
    refine ⟨stored ram (v.map (word v.m_regs 18 + BitVec.ofNat 16 n)) (v.m_regs 31), 31, ?_, size, ?_⟩
    · rw [List.range_succ, List.foldlM_append, ran]
      exact (Option.bind_fun_some _).trans (Buffer.set_of_lt (size ▸ map_lt fitted _))
    · rw [repeated, so_far, Option.bind_some, poke_data (fitted_put fitted size ..), put_ram, put_regs, word_setWord,
        map_put size mode, put_put, setWord_update _ _ (by decide) (by decide), setWord_twice, advance,
        ← setWord_update _ _ (by decide) (by decide), Function.update_eq_self]

/-! ## Copying -/

theorem copyByte_eq (fitted : Fitted v) :
    copyByte v = some (put v
      (stored v.m_ram (v.map (word v.m_regs 18)) (v.m_ram.item (v.map (word v.m_regs 32))))
      (setWord (setWord (Function.update v.m_regs 31 (v.m_ram.item (v.map (word v.m_regs 32)))) 18
        (word v.m_regs 18 + 1)) 32 (word v.m_regs 32 + 1)) 33) := by
  have mode : ∀ p, setWord v.m_regs 18 p 28 = v.m_regs 28 := fun p => setWord_of_ne (by decide) (by decide)
  unfold copyByte
  dsimp only
  rw [show point 18 (word v.m_regs 32) v = _ from point_eq (.inl rfl) _, Option.bind_eq_bind, Option.bind_some, select,
    Option.bind_eq_bind, Option.bind_some, put_put, put_ram, put_regs, (by decide : (31 : Byte) &&& 0x3F = 31),
    read_data (fitted_put fitted rfl ..) rfl, Option.bind_some]
  dsimp only
  rw [put_put, put_ram, put_regs, word_setWord, map_put rfl (mode _),
    show point 18 (word v.m_regs 18) _ = _ from point_eq (.inl rfl) _, Option.bind_some, put_put, put_ram, put_regs,
    setWord_twice, setWord_twice, setWord_word, poke_data (fitted_put fitted rfl ..), Option.bind_some, put_put,
    put_ram, put_regs, map_put rfl rfl, show point 32 _ _ = _ from point_eq (.inr rfl) _]
  rfl

/-- The state after the first bytes of a copy. -/
theorem copied (fitted : Fitted v) (n : ℕ) :
    ∃ ram x i, (List.range n).foldlM (fun (ram : Buffer Byte) (i : ℕ) => do
        let x ← ram.get (v.map (word v.m_regs 32 + BitVec.ofNat 16 i))
        ram.set (v.map (word v.m_regs 18 + BitVec.ofNat 16 i)) x) v.m_ram = some ram ∧
      ram.size = v.m_ram.size ∧
      (0 < n → ram.item (v.map (word v.m_regs 32 + BitVec.ofNat 16 n - 1)) = x) ∧
      repeated copyByte n v = some (put v ram
        (setWord (setWord (Function.update v.m_regs 31 x) 18 (word v.m_regs 18 + BitVec.ofNat 16 n)) 32
          (word v.m_regs 32 + BitVec.ofNat 16 n)) i) := by
  induction n with
  | zero =>
    refine ⟨v.m_ram, v.m_regs 31, v.m_index, rfl, rfl, fun none_ => absurd none_ (Nat.lt_irrefl 0), ?_⟩
    rw [show word v.m_regs 18 + BitVec.ofNat 16 0 = _ from BitVec.add_zero _,
      show word v.m_regs 32 + BitVec.ofNat 16 0 = _ from BitVec.add_zero _, Function.update_eq_self, setWord_word,
      setWord_word]
    rfl
  | succ n ih =>
    obtain ⟨ram, x₀, i, ran, size, -, so_far⟩ := ih
    obtain ⟨x, is_x⟩ : ∃ x, x = ram.item (v.map (word v.m_regs 32 + BitVec.ofNat 16 n)) := ⟨_, rfl⟩
    have mode : setWord (setWord (Function.update v.m_regs 31 x₀) 18 (word v.m_regs 18 + BitVec.ofNat 16 n)) 32
        (word v.m_regs 32 + BitVec.ofNat 16 n) 28 = v.m_regs 28 := by
      rw [setWord_of_ne (by decide) (by decide), setWord_of_ne (by decide) (by decide),
        Function.update_of_ne (by decide : 28 ≠ 31)]
    refine ⟨stored ram (v.map (word v.m_regs 18 + BitVec.ofNat 16 n)) x, x, 33, ?_, size, fun _ => ?_, ?_⟩
    · rw [List.range_succ, List.foldlM_append, ran]
      refine (Option.bind_fun_some _).trans ?_
      dsimp only
      rw [Buffer.get_of_lt (size ▸ map_lt fitted _), ← is_x]
      exact Buffer.set_of_lt (size ▸ map_lt fitted _)
    · -- the last byte read has been overwritten with itself, if at all
      rw [← advance, BitVec.add_sub_cancel, stored]
      dsimp only
      by_cases same : v.map (word v.m_regs 32 + BitVec.ofNat 16 n) = v.map (word v.m_regs 18 + BitVec.ofNat 16 n)
      · rw [same, Function.update_self]
      · rw [Function.update_of_ne same, is_x]
    · rw [repeated, so_far, Option.bind_some, copyByte_eq (fitted_put fitted size ..), put_put, put_ram, put_regs,
        word_apart _ (by omega), word_setWord, word_setWord, map_put size mode, map_put size mode, ← is_x, advance,
        advance, ← setWord_update _ _ (by decide) (by decide), ← setWord_update _ _ (by decide) (by decide),
        Function.update_idem, ← setWord_comm, setWord_twice, setWord_twice]

/-! ## Blocks -/

theorem length_pos (count : Byte) : 0 < blockLength count := by
  unfold blockLength
  split
  next some_ => exact Nat.pos_of_ne_zero fun none_ => some_ (BitVec.eq_of_toNat_eq none_)
  next => decide

/-- The device with the count written, before the block operation starts. -/
def counted (v : Vdc) (count : Byte) : Vdc := put v v.m_ram (Function.update v.m_regs 30 count) 30

theorem poke_count (count : Byte) : poke 30 count v = (counted v count).fillCopy := rfl

theorem counted_count (count : Byte) : (counted v count).m_regs 30 = count :=
  show Function.update v.m_regs 30 count 30 = count from Function.update_self ..

theorem counted_regs (count : Byte) {r : ℕ} (other : r ≠ 30) : (counted v count).m_regs r = v.m_regs r :=
  Function.update_of_ne other ..

theorem counted_word (count : Byte) {r : ℕ} (high : r ≠ 30) (low : r + 1 ≠ 30) :
    word (counted v count).m_regs r = word v.m_regs r := word_update count high low

theorem map_counted (count : Byte) (addr : BitVec 16) : (counted v count).map addr = v.map addr :=
  map_put rfl (counted_regs count (by decide)) _ addr

theorem fill_accesses (fitted : Fitted v) (count : Byte) (fill : v.m_regs 24 &&& 0x80 = 0) :
    ∃ w, repeated (poke 31 (v.m_regs 31)) (blockLength count) v = some w ∧
      poke 30 count v = some { w with m_regs := Function.update w.m_regs 30 count, m_index := 30 } := by
  obtain ⟨ram, i, ran, size, done⟩ := filled fitted (blockLength count)
  refine ⟨_, done, ?_⟩
  rw [poke_count, Vdc.fillCopy, counted_regs count (by decide : 24 ≠ 30),
    if_neg (show ¬v.m_regs 24 &&& 0x80 ≠ 0 from not_not.mpr fill), counted_count,
    counted_word count (by decide) (by decide), counted_regs count (by decide : 31 ≠ 30)]
  simp only [map_counted]
  refine Option.bind_eq_some_iff.mpr ⟨ram, ran, ?_⟩
  change some (put v ram (setWord (Function.update v.m_regs 30 count) 18 _) 30) = _
  rw [setWord_update _ _ (by decide) (by decide)]
  rfl

theorem copy_accesses (fitted : Fitted v) (count : Byte) (copy : v.m_regs 24 &&& 0x80 ≠ 0) :
    ∃ w, repeated copyByte (blockLength count) v = some w ∧
      poke 30 count v = some { w with m_regs := Function.update w.m_regs 30 count, m_index := 30 } := by
  obtain ⟨ram, x, i, ran, size, last, done⟩ := copied fitted (blockLength count)
  refine ⟨_, done, ?_⟩
  rw [poke_count, Vdc.fillCopy, counted_regs count (by decide : 24 ≠ 30), if_pos copy, counted_count,
    counted_word count (by decide) (by decide), counted_word count (by decide) (by decide)]
  simp only [map_counted]
  refine Option.bind_eq_some_iff.mpr ⟨ram, ran, Option.bind_eq_some_iff.mpr ⟨x, ?_, ?_⟩⟩
  · exact (Buffer.get_of_lt (size ▸ map_lt fitted _)).trans (congrArg some (last (length_pos count)))
  · change some (put v ram
      (setWord (setWord (Function.update (Function.update v.m_regs 30 count) 31 x) 32 _) 18 _) 30) = _
    rw [Function.update_comm (by decide : 30 ≠ 31), setWord_update _ _ (by decide) (by decide),
      setWord_update _ _ (by decide) (by decide), ← setWord_comm]
    rfl

/-! ## Looking -/

theorem ioPeek_eq (addr : BitVec 32) : v.ioPeek addr = (v.ioRead addr).map Prod.fst := by
  unfold Vdc.ioRead
  split
  next data =>
    rw [Vdc.ioPeek, if_neg data.1, if_pos data.2]
    dsimp only
    cases v.m_ram.get (v.map (word v.m_regs 18)) <;> rfl
  next other =>
    rw [Option.map_map]
    exact Option.map_id'.symm

/-- A block operation is as many single accesses: a fill writes R31 as often as the count says, a copy copies a byte
as often; only R30 and the selected register differ. Every access is inside of the RAM, and looking at R31 shows what
reading it gives. -/
theorem block_accesses (fitted : Fitted v) (count : Byte) :
    (∀ addr, v.map addr < v.m_ram.size) ∧
    (v.m_regs 24 &&& 0x80 = 0 → ∃ w, repeated (poke 31 (v.m_regs 31)) (blockLength count) v = some w ∧
      poke 30 count v = some { w with m_regs := Function.update w.m_regs 30 count, m_index := 30 }) ∧
    (v.m_regs 24 &&& 0x80 ≠ 0 → ∃ w, repeated copyByte (blockLength count) v = some w ∧
      poke 30 count v = some { w with m_regs := Function.update w.m_regs 30 count, m_index := 30 }) ∧
    ∀ addr, v.ioPeek addr = (v.ioRead addr).map Prod.fst :=
  ⟨map_lt fitted, fill_accesses fitted count, copy_accesses fitted count, ioPeek_eq⟩

theorem block_accesses_fill : ∃ w, repeated (poke 31 0) 256 (Vdc.new false) = some w ∧
    poke 30 0 (Vdc.new false) = some { w with m_regs := Function.update w.m_regs 30 0, m_index := 30 } :=
  (block_accesses (v := Vdc.new false) (.inl rfl) 0).2.1 rfl

end Mmemu.Guarantees.BlockAccesses
