import Mmemu.Library.Stepping
import Mmemu.Source.Cpu45gs02Step

/-!
# MOS 45GS02: what an instruction leaves alone

An instruction moves PC over its own bytes, unless it transfers control, and only MAP and EOM
touch what decides about an NMI.
-/
namespace Mmemu.Source.Cpu45gs02
open Mmemu.Source.MemoryBus
open Mmemu.Library.StateFrame

variable {ω α : Type}

/-- PC and what decides about an NMI are as they were. -/
def Kept (s s' : CPU45GS02State) : Prop := s'.pc = s.pc ∧ s'.nmi = s.nmi

/-- PC went on by `n` bytes, and NMIs are where they were. -/
structure Moved (n : BitVec 16) (c c' : MOS45GS02 ω) : Prop where
  pc : c'.state.pc = c.state.pc + n
  nmi : c'.state.nmi = c.state.nmi

/-- NMIs are where they were. -/
def SameNmi (c c' : MOS45GS02 ω) : Prop := c'.state.nmi = c.state.nmi

theorem Moved.refl (c : MOS45GS02 ω) : Moved 0 c c := ⟨by simp, rfl⟩

theorem Moved.trans {n m : BitVec 16} (c c' c'' : MOS45GS02 ω) (h : Moved n c c')
    (h' : Moved m c' c'') : Moved (n + m) c c'' :=
  ⟨by rw [h'.pc, h.pc, BitVec.add_assoc], h'.nmi.trans h.nmi⟩

theorem Moved.still_trans {n : BitVec 16} (c c' c'' : MOS45GS02 ω) (h : Moved 0 c c')
    (h' : Moved n c' c'') : Moved n c c'' := by
  simpa using h.trans c c' c'' h'

theorem Moved.trans_still {n : BitVec 16} (c c' c'' : MOS45GS02 ω) (h : Moved n c c')
    (h' : Moved 0 c' c'') : Moved n c c'' := by
  simpa using h.trans c c' c'' h'

instance : IsPreorder (MOS45GS02 ω) (Moved 0) where
  refl := .refl
  trans := Moved.still_trans

instance : IsPreorder (MOS45GS02 ω) SameNmi where
  refl _ := rfl
  trans _ _ _ h h' := Eq.trans h' h

theorem Keeps.nmi {n : BitVec 16} {x : Exec ω α} (h : Keeps (Moved n) x) : Keeps SameNmi x :=
  h.mono fun _ _ => Moved.nmi

/-! ## Registers, memory and stack -/

theorem regs_still {f : CPU45GS02State → CPU45GS02State} (kept : ∀ s, Kept s (f s)) :
    Keeps (Moved 0) (regs f : Exec ω Unit) := fun c =>
  ⟨(kept c.state).1.trans (by simp), (kept c.state).2⟩

theorem regs_nmi {f : CPU45GS02State → CPU45GS02State} (nmi : ∀ s, (f s).nmi = s.nmi) :
    Keeps SameNmi (regs f : Exec ω Unit) := fun c => nmi c.state

theorem regs_moved (n : BitVec 16) :
    Keeps (Moved n) (regs fun s => { s with pc := s.pc + n } : Exec ω Unit) := fun _ => ⟨rfl, rfl⟩

theorem addCycles_still (n : ℕ) : Keeps (Moved 0) (addCycles n : Exec ω Unit) :=
  regs_still fun _ => ⟨rfl, rfl⟩

theorem still_of_state {x : Exec ω α} (same : ∀ c, (x c).2.state = c.state) :
    Keeps (Moved 0) x := fun c => ⟨by simp [same], by rw [same]⟩

/-- Four accesses in a row. -/
theorem readFour_still {read : BitVec 32 → Exec ω (BitVec 8)}
    (still : ∀ addr, Keeps (Moved 0) (read addr)) (addr : BitVec 32) :
    Keeps (Moved 0) (readFour read addr) :=
  (still _).bind fun _ => (still _).bind fun _ => (still _).bind fun _ => (still _).bind fun _ =>
    Keeps.pure _

theorem writeFour_still {write : BitVec 32 → BitVec 8 → Exec ω Unit}
    (still : ∀ addr val, Keeps (Moved 0) (write addr val)) (addr val : BitVec 32) :
    Keeps (Moved 0) (writeFour write addr val) :=
  (still _ _).bind fun _ => (still _ _).bind fun _ => (still _ _).bind fun _ => still _ _

variable [MachineBus ω]

theorem read8_state (addr : BitVec 16) (c : MOS45GS02 ω) : (read8 addr c).2.state = c.state := by
  unfold read8
  split <;> rfl

theorem write8_state (addr : BitVec 16) (val : BitVec 8) (c : MOS45GS02 ω) :
    (write8 addr val c).2.state = c.state := by
  rw [write8_run]
  cases c.hyperWindow addr with
  | none => rfl
  | some w =>
    rw [Option.elim_some]
    split <;> rfl

theorem read8_still (addr : BitVec 16) : Keeps (Moved 0) (read8 addr : Exec ω (BitVec 8)) :=
  still_of_state (read8_state addr)

theorem write8_still (addr : BitVec 16) (val : BitVec 8) :
    Keeps (Moved 0) (write8 addr val : Exec ω Unit) := still_of_state (write8_state addr val)

theorem read8_phys_still (addr : BitVec 32) :
    Keeps (Moved 0) (read8_phys addr : Exec ω (BitVec 8)) := still_of_state fun _ => rfl

theorem write8_phys_still (addr : BitVec 32) (val : BitVec 8) :
    Keeps (Moved 0) (write8_phys addr val : Exec ω Unit) := still_of_state fun _ => rfl

theorem read16_still (addr : BitVec 16) : Keeps (Moved 0) (read16 addr : Exec ω (BitVec 16)) :=
  (read8_still _).bind fun _ => (read8_still _).bind fun _ => Keeps.pure _

theorem push8_still (v : BitVec 8) : Keeps (Moved 0) (push8 v : Exec ω Unit) :=
  Keeps.get.bind fun _ => (write8_still _ _).bind fun _ =>
    regs_still fun _ => ⟨rfl, rfl⟩

theorem pull8_still : Keeps (Moved 0) (pull8 : Exec ω (BitVec 8)) :=
  Keeps.bind (regs_still fun _ => ⟨rfl, rfl⟩) fun _ => Keeps.get.bind fun _ =>
    read8_still _

theorem push16_still (v : BitVec 16) : Keeps (Moved 0) (push16 v : Exec ω Unit) :=
  (push8_still _).bind fun _ => push8_still _

theorem pull16_still : Keeps (Moved 0) (pull16 : Exec ω (BitVec 16)) :=
  pull8_still.bind fun _ => pull8_still.bind fun _ => Keeps.pure _

theorem fetch_moved : Keeps (Moved 1) (fetch : Exec ω (BitVec 8)) :=
  Keeps.seq Moved.still_trans Keeps.get fun _ =>
    Keeps.seq Moved.trans_still (regs_moved 1) fun _ => read8_still _

/-! ## Operands -/

/-- The bytes behind the opcode that an addressing mode fetches. -/
def Mode.bytes : Mode → BitVec 16
  | .imp => 0
  | .imm | .zp | .zpx | .zpy | .indx | .indy | .stackRel | .indz | .indzq => 1
  | .abs | .absx | .absy => 2

theorem readAt_still (o : Operand) : Keeps (Moved 0) (readAt o : Exec ω (BitVec 8)) := by
  cases o with
  | reg => exact Keeps.get.bind fun _ => Keeps.pure _
  | mem addr => exact read8_still addr
  | flat addr => exact read8_phys_still addr

theorem writeAt_still (o : Operand) (v : BitVec 8) :
    Keeps (Moved 0) (writeAt o v : Exec ω Unit) := by
  cases o with
  | reg => exact regs_still fun _ => ⟨rfl, rfl⟩
  | mem addr => exact write8_still addr v
  | flat addr => exact write8_phys_still addr v

theorem readQ_still (o : Operand) : Keeps (Moved 0) (readQ o : Exec ω (BitVec 32)) := by
  cases o with
  | reg => exact Keeps.get.bind fun _ => Keeps.pure _
  | mem addr => exact readFour_still (fun _ => read8_still _) _
  | flat addr => exact readFour_still read8_phys_still addr

theorem writeQ_still (o : Operand) (v : BitVec 32) :
    Keeps (Moved 0) (writeQ o v : Exec ω Unit) := by
  cases o with
  | reg => exact regs_still fun _ => ⟨rfl, rfl⟩
  | mem addr => simpa only [writeQ, write32] using writeFour_still (fun _ _ => write8_still _ _) _ v
  | flat addr => simpa only [writeQ, write32_phys] using writeFour_still write8_phys_still addr v

theorem getAbs_moved : Keeps (Moved 2) (getAbs : Exec ω (BitVec 16)) := by
  have both : Keeps (Moved (1 + 1)) (getAbs : Exec ω (BitVec 16)) :=
    Keeps.seq Moved.trans fetch_moved fun _ =>
      Keeps.seq Moved.trans_still fetch_moved fun _ =>
        (addCycles_still 2).bind fun _ => Keeps.pure _
  rwa [show (1 : BitVec 16) + 1 = 2 from by decide] at both

theorem getZp_moved (index : CPU45GS02State → BitVec 8) :
    Keeps (Moved 1) (getZp index : Exec ω (BitVec 16)) :=
  Keeps.seq Moved.trans_still fetch_moved fun _ =>
    (addCycles_still 1).bind fun _ => Keeps.get.bind fun _ => Keeps.pure _

theorem getIndPhys_moved (is32BitInd : Bool) :
    Keeps (Moved 1) (getIndPhys is32BitInd : Exec ω (BitVec 32)) :=
  Keeps.seq Moved.trans_still (getZp_moved _) fun _ => Keeps.ite
    ((readFour_still (fun _ => read8_still _) _).bind fun _ => (addCycles_still _).bind fun _ =>
      Keeps.pure _)
    ((read16_still _).bind fun _ => (addCycles_still _).bind fun _ => Keeps.pure _)

theorem indirect_moved (is32BitInd addZ : Bool) :
    Keeps (Moved 1) (indirect is32BitInd addZ : Exec ω Operand) :=
  Keeps.seq Moved.trans_still (getIndPhys_moved _) fun _ => Keeps.get.bind fun _ => Keeps.pure _

/-- Finding the operand moves PC over its bytes. -/
theorem operand_moved (mode : Mode) (isQuad is32BitInd : Bool) :
    Keeps (Moved mode.bytes) (operand mode isQuad is32BitInd : Exec ω Operand) := by
  have basePage (index : CPU45GS02State → BitVec 8) :
      Keeps (Moved 1) (do return .mem (← getZp index) : Exec ω Operand) :=
    Keeps.seq Moved.trans_still (getZp_moved index) fun _ => Keeps.pure _
  cases mode with
  | imp => exact Keeps.pure (r := Moved 0) _
  | imm =>
    exact Keeps.seq Moved.still_trans Keeps.get fun _ =>
      Keeps.seq Moved.trans_still (regs_moved 1) fun _ => Keeps.pure _
  | zp | zpx | zpy => exact basePage _
  | abs => exact Keeps.seq Moved.trans_still getAbs_moved fun _ => Keeps.pure _
  | absx | absy =>
    exact Keeps.seq Moved.trans_still getAbs_moved fun _ => Keeps.get.bind fun _ => Keeps.pure _
  | indx =>
    refine Keeps.seq Moved.trans_still (q := Moved 0) (r := Moved 1) ?_ fun _ => Keeps.pure _
    exact Keeps.seq Moved.trans_still fetch_moved fun _ => Keeps.get.bind fun _ =>
      (read16_still _).bind fun _ => (addCycles_still _).bind fun _ => Keeps.pure _
  | indy | stackRel =>
    refine Keeps.seq Moved.trans_still (q := Moved 0) (r := Moved 1) ?_ fun _ => Keeps.pure _
    exact Keeps.seq Moved.trans_still fetch_moved fun _ => Keeps.get.bind fun _ =>
      (read16_still _).bind fun _ => (addCycles_still _).bind fun _ => Keeps.get.bind fun _ =>
        Keeps.pure _
  | indz | indzq => exact indirect_moved _ _

/-! ## Kinds of instructions -/

theorem loaded_still {f : CPU45GS02State → BitVec 8 → CPU45GS02State}
    (kept : ∀ s v, Kept s (f s v)) (o : Operand) : Keeps (Moved 0) (loaded f o : Exec ω Unit) :=
  (readAt_still o).bind fun v => regs_still fun s => kept s v

theorem stored_still (val : CPU45GS02State → BitVec 8) (o : Operand) :
    Keeps (Moved 0) (stored val o : Exec ω Unit) :=
  Keeps.get.bind fun _ => writeAt_still o _

theorem popped_still {f : CPU45GS02State → BitVec 8 → CPU45GS02State}
    (kept : ∀ s v, Kept s (f s v)) : Keeps (Moved 0) (popped f : Exec ω Unit) :=
  pull8_still.bind fun v => regs_still fun s => kept s v

theorem stepByte_still (by_ : BitVec 8) (o : Operand) :
    Keeps (Moved 0) (stepByte by_ o : Exec ω Unit) :=
  (readAt_still o).bind fun _ => (writeAt_still o _).bind fun _ => regs_still fun _ => ⟨rfl, rfl⟩

theorem shifted_still (f : BitVec 8 → BitVec 8 → Bool × BitVec 8) (o : Operand) :
    Keeps (Moved 0) (shifted f o : Exec ω Unit) :=
  (readAt_still o).bind fun _ => Keeps.get.bind fun _ =>
    Keeps.bind (regs_still fun _ => ⟨rfl, rfl⟩) fun _ => (writeAt_still o _).bind fun _ =>
      regs_still fun _ => ⟨rfl, rfl⟩

theorem testAndWrite_still (f : BitVec 8 → BitVec 8 → BitVec 8) (o : Operand) :
    Keeps (Moved 0) (testAndWrite f o : Exec ω Unit) :=
  (readAt_still o).bind fun _ => Keeps.bind (regs_still fun _ => ⟨rfl, rfl⟩) fun _ =>
    Keeps.get.bind fun _ => writeAt_still o _

theorem wordOp_still (f : BitVec 8 → BitVec 16 → BitVec 8 × BitVec 16) (o : Operand) :
    Keeps (Moved 0) (wordOp f o : Exec ω Unit) :=
  (read16_still _).bind fun _ => Keeps.get.bind fun _ =>
    Keeps.bind (regs_still fun _ => ⟨rfl, rfl⟩) fun _ => (write8_still _ _).bind fun _ =>
      (write8_still _ _).bind fun _ => regs_still fun _ => ⟨rfl, rfl⟩

theorem loadedQ_still {f : CPU45GS02State → BitVec 32 → CPU45GS02State}
    (kept : ∀ s v, Kept s (f s v)) (o : Operand) : Keeps (Moved 0) (loadedQ f o : Exec ω Unit) :=
  (readQ_still o).bind fun v => regs_still fun s => kept s v

theorem stepQ_still (by_ : BitVec 32) (o : Operand) :
    Keeps (Moved 0) (stepQ by_ o : Exec ω Unit) :=
  (readQ_still o).bind fun _ => (writeQ_still o _).bind fun _ => regs_still fun _ => ⟨rfl, rfl⟩

theorem shiftedQ_still (f : BitVec 8 → BitVec 32 → Bool × BitVec 32) (o : Operand) :
    Keeps (Moved 0) (shiftedQ f o : Exec ω Unit) :=
  (readQ_still o).bind fun _ => Keeps.get.bind fun _ =>
    Keeps.bind (regs_still fun _ => ⟨rfl, rfl⟩) fun _ => (writeQ_still o _).bind fun _ =>
      regs_still fun _ => ⟨rfl, rfl⟩

theorem doAdc8_kept (s : CPU45GS02State) (v : BitVec 8) : Kept s (s.doAdc8 v) := by
  unfold CPU45GS02State.doAdc8
  split
  · unfold CPU45GS02State.adcDecimal
    extract_lets
    split
    · exact ⟨rfl, rfl⟩
    · exact ⟨rfl, rfl⟩
  · exact ⟨rfl, rfl⟩

theorem doSbc8_kept (s : CPU45GS02State) (v : BitVec 8) : Kept s (s.doSbc8 v) := by
  unfold CPU45GS02State.doSbc8
  split
  · exact ⟨rfl, rfl⟩
  · exact ⟨rfl, rfl⟩

/-! ## Every instruction -/

/-- The instructions that may set PC. -/
def Fn.transfers : Fn → Bool
  | .JMP | .JMPIND | .JSR | .JSRIND | .BSR | .RTS | .RTI | .RTN | .BRK => true
  | .branch _ | .longBranch _ | .branchOnBit _ => true
  | _ => false

/-- The instructions between which interrupts wait. -/
def Fn.inhibits (fn : Fn) : Bool := fn = .MAP || fn = .EOM

/-- Any other instruction leaves PC behind its bytes and NMIs where they were. -/
theorem call_still (op : BitVec 8) {fn : Fn} (straight : fn.transfers = false)
    (plain : fn.inhibits = false) (o : Operand) : Keeps (Moved 0) (call op fn o : Exec ω Unit) := by
  have register {f : CPU45GS02State → CPU45GS02State} (kept : ∀ s, Kept s (f s)) :
      Keeps (Moved 0) (implied f : Exec ω Unit) := regs_still kept
  have modified (f : BitVec 8 → BitVec 8) :
      Keeps (Moved 0) (do writeAt o (f (← readAt o)) : Exec ω Unit) :=
    (readAt_still o).bind fun _ => writeAt_still o _
  cases fn with
  | ADC => exact loaded_still doAdc8_kept o
  | SBC => exact loaded_still doSbc8_kept o
  | AND | ORA | EOR | CMP | CPX | CPY | CPZ | BIT | LDA | LDX | LDY | LDZ =>
    refine loaded_still ?_ o
    intro s v
    exact ⟨rfl, rfl⟩
  | STA | STX | STY | STZ =>
    simp only [call]
    exact stored_still _ o
  | TSB | TRB =>
    simp only [call]
    exact testAndWrite_still _ o
  | INC | DEC =>
    simp only [call]
    exact stepByte_still _ o
  | ASL | LSR | ASR | ROL | ROR =>
    simp only [call]
    exact shifted_still _ o
  | INW | DEW | ASW | ROW =>
    simp only [call]
    exact wordOp_still _ o
  | RMB | SMB =>
    simp only [call]
    exact modified _
  | NEG | CLC | CLD | CLE | CLI | CLV | SEC | SED | SEE | SEI | INX | INY | INZ | DEX | DEY | DEZ
  | TAX | TAY | TAZ | TAB | TXA | TYA | TZA | TBA | TSX | TSY | TXS | TYS =>
    refine register ?_
    intro s
    exact ⟨rfl, rfl⟩
  | PHA | PHX | PHY | PHZ | PHP =>
    simp only [call]
    exact Keeps.get.bind fun _ => push8_still _
  | PLA | PLX | PLY | PLZ | PLP =>
    refine popped_still ?_
    intro s v
    exact ⟨rfl, rfl⟩
  | PHW =>
    exact (read8_still _).bind fun _ => (read8_still _).bind fun _ => (push8_still _).bind fun _ =>
      push8_still _
  | PHWI => exact (push8_still _).bind fun _ => push8_still _
  | JMP | JMPIND | JSR | JSRIND | BSR | RTS | RTI | RTN | BRK | branch | longBranch | branchOnBit =>
    cases straight
  | MAP | EOM => cases plain

theorem callQ_still (fn : QuadFn) (o : Operand) : Keeps (Moved 0) (callQ fn o : Exec ω Unit) := by
  cases fn with
  | LDQ | ADCQ | SBCQ | CMPQ | ANDQ | ORAQ | EORQ | BITQ =>
    refine loadedQ_still ?_ o
    intro s v
    exact ⟨rfl, rfl⟩
  | STQ => exact Keeps.get.bind fun _ => writeQ_still o _
  | INQ | DEQ =>
    simp only [callQ]
    exact stepQ_still _ o
  | ASLQ | LSRQ | ASRQ | ROLQ | RORQ =>
    simp only [callQ]
    exact shiftedQ_still _ o
  | NEGQ => exact regs_still fun _ => ⟨rfl, rfl⟩

/-! ## Interrupts -/

omit [MachineBus ω] in
theorem jump_nmi (pc : BitVec 16) : Keeps SameNmi (jump pc : Exec ω Unit) := fun _ => rfl

theorem fetch_nmi : Keeps SameNmi (fetch : Exec ω (BitVec 8)) := Keeps.nmi fetch_moved

theorem enter_nmi (status mask : BitVec 8 → BitVec 8) (vector : BitVec 16) :
    Keeps SameNmi (enter status mask vector : Exec ω Unit) :=
  Keeps.get.bind fun _ => (Keeps.nmi (push16_still _)).bind fun _ => Keeps.get.bind fun _ =>
    (Keeps.nmi (push8_still _)).bind fun _ => Keeps.bind (regs_nmi fun _ => rfl) fun _ =>
      (Keeps.nmi (read16_still _)).bind fun _ => jump_nmi _

/-- Control transfers keep NMIs where they were, too. -/
theorem call_nmi (op : BitVec 8) {fn : Fn} (plain : fn.inhibits = false) (o : Operand) :
    Keeps SameNmi (call op fn o : Exec ω Unit) := by
  have pulled : Keeps SameNmi (pull16 : Exec ω (BitVec 16)) := Keeps.nmi pull16_still
  have pushed (v : BitVec 16) : Keeps SameNmi (push16 v : Exec ω Unit) := Keeps.nmi (push16_still v)
  have word (addr : BitVec 16) : Keeps SameNmi (read16 addr : Exec ω (BitVec 16)) :=
    Keeps.nmi (read16_still addr)
  have byte : Keeps SameNmi (readAt o : Exec ω (BitVec 8)) := Keeps.nmi (readAt_still o)
  have counted (n : ℕ) : Keeps SameNmi (addCycles n : Exec ω Unit) := Keeps.nmi (addCycles_still n)
  cases transfers : fn.transfers with
  | false => exact Keeps.nmi (call_still op transfers plain o)
  | true =>
    cases fn with
    | JMP => exact jump_nmi _
    | JMPIND => exact (word _).bind fun _ => jump_nmi _
    | JSR => exact Keeps.get.bind fun _ => (pushed _).bind fun _ => jump_nmi _
    | JSRIND =>
      exact (word _).bind fun _ => Keeps.get.bind fun _ => (pushed _).bind fun _ => jump_nmi _
    | BSR =>
      exact Keeps.get.bind fun _ => (word _).bind fun _ => (pushed _).bind fun _ => fun _ => rfl
    | RTS => exact pulled.bind fun _ => jump_nmi _
    | RTI =>
      have status : Keeps SameNmi (popped pulledStatus : Exec ω Unit) :=
        Keeps.nmi (popped_still fun _ _ => ⟨rfl, rfl⟩)
      exact status.bind fun _ => pulled.bind fun _ => jump_nmi _
    | RTN =>
      exact pulled.bind fun _ => fetch_nmi.bind fun _ => (jump_nmi _).bind fun _ => fun _ => rfl
    | BRK => exact Keeps.bind (regs_nmi fun _ => rfl) fun _ => enter_nmi _ _ _
    | branch k =>
      exact byte.bind fun _ => Keeps.get.bind fun _ => Keeps.ite
        (Keeps.bind (regs_nmi fun _ => rfl) fun _ => counted 1) (Keeps.pure _)
    | longBranch k =>
      refine Keeps.get.bind fun _ => (word _).bind fun _ => Keeps.bind (regs_nmi fun _ => rfl)
        fun _ => Keeps.get.bind fun _ => Keeps.ite ?_ ?_
      · exact Keeps.bind (regs_nmi fun _ => rfl) fun _ => (counted 1).bind fun _ => counted 2
      · exact Keeps.bind (regs_nmi fun _ => rfl) fun _ => counted 2
    | branchOnBit on =>
      exact byte.bind fun _ => fetch_nmi.bind fun _ => Keeps.ite (regs_nmi fun _ => rfl)
        (Keeps.pure _)
    | _ => cases transfers

theorem shouldConsume_still : Keeps (Moved 0) (shouldConsume : Exec ω Bool) := by
  refine Keeps.get.bind fun c => ?_
  have last (consume : Bool) : Keeps (Moved 0) (do
      let op ← read8 (c.state.pc + 1)
      return consume && !isQuadImmediateOpcode op : Exec ω Bool) :=
    (read8_still _).bind fun _ => Keeps.pure _
  exact Keeps.ite ((read8_still _).bind fun _ => last _) (last true)

theorem fetchOpcode_nmi (rounds : ℕ) (f : Fetched) :
    Keeps SameNmi (fetchOpcode rounds f : Exec ω Fetched) := by
  have counted : Keeps SameNmi (addCycles 1 : Exec ω Unit) := Keeps.nmi (addCycles_still 1)
  have look (addr : BitVec 16) : Keeps SameNmi (read8 addr : Exec ω (BitVec 8)) :=
    Keeps.nmi (read8_still addr)
  induction rounds generalizing f with
  | zero => exact Keeps.pure _
  | succ rounds ih =>
    refine fetch_nmi.bind fun op => counted.bind fun _ => Keeps.ite ?_ (Keeps.ite ?_ (Keeps.pure _))
    · refine Keeps.get.bind fun _ => (look _).bind fun _ => Keeps.ite ?_ (Keeps.pure _)
      refine (Keeps.nmi shouldConsume_still).bind fun _ => Keeps.ite ?_ (Keeps.pure _)
      exact Keeps.bind (regs_nmi fun _ => rfl) fun _ => counted.bind fun _ => ih _
    · refine Keeps.get.bind fun _ => (look _).bind fun _ => Keeps.ite (ih _) (Keeps.pure _)

/-- Whether interrupts wait after an instruction. -/
def Fetched.inhibit (f : Fetched) (before : Bool) : Bool :=
  if (opcode f.op).fn = .MAP then true else if (opcode f.op).fn = .EOM then false else before

theorem inhibits_of_quad : ∀ op : BitVec 8,
    (opcode op).quad.isSome = true → (opcode op).fn.inhibits = false := by decide

/-- MAP makes interrupts wait, EOM lets them come again, and no other instruction does either. -/
theorem perform_nmi (f : Fetched) (o : Operand) (c : MOS45GS02 ω) :
    (perform f o c).2.state.nmi =
      ⟨c.state.nmiLine, c.state.nmiPrev, f.inhibit c.state.mapInterruptInhibit⟩ := by
  have plain (plain : (opcode f.op).fn.inhibits = false) :
      f.inhibit c.state.mapInterruptInhibit = c.state.mapInterruptInhibit := by
    simp only [Fn.inhibits, Bool.or_eq_false_iff, decide_eq_false_iff_not] at plain
    rw [Fetched.inhibit, if_neg plain.1, if_neg plain.2]
  have counted (n : ℕ) : Keeps SameNmi (addCycles n : Exec ω Unit) := Keeps.nmi (addCycles_still n)
  rcases quad : f.quad with _ | ⟨fn, cycles⟩
  · simp only [perform, quad]
    by_cases inhibits : (opcode f.op).fn.inhibits = true
    · refine Eq.trans (counted _ _) ?_
      simp only [Fn.inhibits, Bool.or_eq_true, decide_eq_true_eq] at inhibits
      rcases inhibits with map | eom
      · rw [Fetched.inhibit, if_pos map, map]
        change ((regs fun s => { s with mapInterruptInhibit := true })
          (if c.mapMmu then _ else c : MOS45GS02 ω)).2.state.nmi = _
        split <;> rfl
      · rw [Fetched.inhibit, eom]
        rfl
    · have straight := Bool.eq_false_iff.mpr inhibits
      rw [plain straight]
      exact ((call_nmi f.op straight o).bind fun _ => counted _) c
  · have wide : (opcode f.op).quad.isSome = true := by
      unfold Fetched.quad at quad
      split at quad
      · simp [quad]
      · cases quad
    simp only [perform, quad]
    rw [plain (inhibits_of_quad f.op wide)]
    exact ((Keeps.nmi (callQ_still fn o)).bind fun _ => counted cycles) c

/-- The instruction at PC, without its operand. -/
def MOS45GS02.fetched (c : MOS45GS02 ω) : Fetched :=
  (fetchOpcode MAX_PREFIXES ⟨0, false, false⟩ c).1

theorem execute_nmi (c : MOS45GS02 ω) :
    (execute c).2.state.nmi =
      ⟨c.state.nmiLine, c.state.nmiPrev, c.fetched.inhibit c.state.mapInterruptInhibit⟩ := by
  have fetched : SameNmi c (fetchOpcode MAX_PREFIXES ⟨0, false, false⟩ c).2 := fetchOpcode_nmi _ _ c
  have found := Keeps.nmi (operand_moved (opcode c.fetched.op).mode c.fetched.isQuad
    c.fetched.is32BitInd) (fetchOpcode MAX_PREFIXES ⟨0, false, false⟩ c).2
  have nmi := IsTrans.trans _ _ _ fetched found
  obtain ⟨line, prev, inhibit⟩ := NmiState.mk.inj nmi
  have performed := perform_nmi c.fetched
    (operand (opcode c.fetched.op).mode c.fetched.isQuad c.fetched.is32BitInd
      (fetchOpcode MAX_PREFIXES ⟨0, false, false⟩ c).2).1
    (operand (opcode c.fetched.op).mode c.fetched.isQuad c.fetched.is32BitInd
      (fetchOpcode MAX_PREFIXES ⟨0, false, false⟩ c).2).2
  rw [line, prev, inhibit] at performed
  exact performed

/-! ## The step -/

theorem observe_state (w : Wiring ω) (c : MOS45GS02 ω) : (observe w c).2.state = c.state := by
  unfold observe
  split
  · rfl
  · split <;> rfl

omit [MachineBus ω] in
theorem intercept_nmi (w : Wiring ω) (c : MOS45GS02 ω) :
    (intercept w c).2.state.nmi = c.state.nmi := by
  unfold intercept
  split
  next hook _ =>
    split
    · exact hook.nmi_fire c
    · rfl
  · rfl

theorem interrupt_nmi (vector : BitVec 16) : Keeps SameNmi (interrupt vector : Exec ω ℕ) :=
  (enter_nmi _ _ vector).bind fun _ => (Keeps.nmi (addCycles_still 7)).bind fun _ => Keeps.pure _

theorem step_halted (w : Wiring ω) {c : MOS45GS02 ω}
    (halted : MachineBus.isHaltRequested c.bus = true) :
    (step w c).2.state = { c.state with haltLine := true } := by
  change ((if MachineBus.isHaltRequested c.bus then _ else _ : Exec ω ℕ) c).2.state = _
  rw [if_pos halted]
  rfl

/-- The core when it has sampled the NMI line. -/
def MOS45GS02.sampled (c : MOS45GS02 ω) : MOS45GS02 ω :=
  { c with state := { c.state with haltLine := false, nmiPrev := c.state.nmiLine } }

/-- What a step does that takes no interrupt. -/
def proceed (w : Wiring ω) : Exec ω ℕ := do
  let served ← intercept w
  if served then
    addCycles 6
    return 6
  else
    let before := (← get).state.cycles
    let cont ← observe w
    if cont then
      execute
      return ((← get).state.cycles - before).toNat
    else return 1

theorem step_running (w : Wiring ω) {c : MOS45GS02 ω}
    (running : MachineBus.isHaltRequested c.bus = false) :
    step w c =
      if c.state.nmiTaken then
        interrupt 0xFFFA { c with state := { c.state with haltLine := false, nmiPrev := true } }
      else if c.state.irqTaken then interrupt 0xFFFE c.sampled
      else proceed w c.sampled := by
  change (if MachineBus.isHaltRequested c.bus then _ else _ : Exec ω ℕ) c = _
  rw [if_neg (by simp [running])]
  change (if c.state.nmiTaken then _ else _ : Exec ω ℕ)
    { c with state := { c.state with haltLine := false } } = _
  split
  · rfl
  · change (if c.state.irqTaken then interrupt 0xFFFE else proceed w) c.sampled = _
    split <;> rfl

end Mmemu.Source.Cpu45gs02
