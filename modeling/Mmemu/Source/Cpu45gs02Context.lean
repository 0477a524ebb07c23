import Mmemu.Library.Stepping
import Mmemu.Source.Cpu45gs02Step

/-!
# MOS 45GS02: the saved context

No instruction enters or leaves the hypervisor by itself or touches what was saved on the way
in: only the virtualisation registers do, which are not part of the core.
-/
namespace Mmemu.Source.Cpu45gs02
open Mmemu.Source.MemoryBus
open Mmemu.Library.StateFrame

variable {ω α : Type}

/-- The saved context, the mode, and whether there is a MAP controller are as they were. -/
structure SameContext (c c' : MOS45GS02 ω) : Prop where
  saved : c'.hyperState = c.hyperState
  mode : c'.state.hypervisor = c.state.hypervisor
  mapMmu : c'.mapMmu = c.mapMmu

theorem SameContext.refl (c : MOS45GS02 ω) : SameContext c c := ⟨rfl, rfl, rfl⟩

theorem SameContext.trans {c c' c'' : MOS45GS02 ω} (h : SameContext c c') (h' : SameContext c' c'') :
    SameContext c c'' :=
  ⟨h'.saved.trans h.saved, h'.mode.trans h.mode, h'.mapMmu.trans h.mapMmu⟩

instance : IsPreorder (MOS45GS02 ω) SameContext where
  refl := .refl
  trans _ _ _ := .trans

/-! ## Registers, memory and stack -/

theorem regs_context {f : CPU45GS02State → CPU45GS02State}
    (mode : ∀ s, (f s).hypervisor = s.hypervisor) : Keeps SameContext (regs f : Exec ω Unit) :=
  fun c => ⟨rfl, mode c.state, rfl⟩

theorem addCycles_context (n : ℕ) : Keeps SameContext (addCycles n : Exec ω Unit) :=
  regs_context fun _ => rfl

theorem jump_context (pc : BitVec 16) : Keeps SameContext (jump pc : Exec ω Unit) :=
  regs_context fun _ => rfl

theorem readFour_context {read : BitVec 32 → Exec ω (BitVec 8)}
    (kept : ∀ addr, Keeps SameContext (read addr)) (addr : BitVec 32) :
    Keeps SameContext (readFour read addr) :=
  (kept _).bind fun _ => (kept _).bind fun _ => (kept _).bind fun _ => (kept _).bind fun _ =>
    Keeps.pure _

theorem writeFour_context {write : BitVec 32 → BitVec 8 → Exec ω Unit}
    (kept : ∀ addr val, Keeps SameContext (write addr val)) (addr val : BitVec 32) :
    Keeps SameContext (writeFour write addr val) :=
  (kept _ _).bind fun _ => (kept _ _).bind fun _ => (kept _ _).bind fun _ => kept _ _

variable [MachineBus ω]

theorem read8_context (addr : BitVec 16) : Keeps SameContext (read8 addr : Exec ω (BitVec 8)) := by
  intro c
  unfold read8
  split
  · exact .refl c
  · exact ⟨rfl, rfl, rfl⟩

theorem write8_context (addr : BitVec 16) (val : BitVec 8) :
    Keeps SameContext (write8 addr val : Exec ω Unit) := by
  intro c
  rw [write8_run]
  cases c.hyperWindow addr with
  | none => exact ⟨rfl, rfl, rfl⟩
  | some w =>
    rw [Option.elim_some]
    split
    · exact ⟨rfl, rfl, rfl⟩
    · exact .refl c

theorem read8_phys_context (addr : BitVec 32) :
    Keeps SameContext (read8_phys addr : Exec ω (BitVec 8)) := fun _ => ⟨rfl, rfl, rfl⟩

theorem write8_phys_context (addr : BitVec 32) (val : BitVec 8) :
    Keeps SameContext (write8_phys addr val : Exec ω Unit) := fun _ => ⟨rfl, rfl, rfl⟩

theorem read16_context (addr : BitVec 16) : Keeps SameContext (read16 addr : Exec ω (BitVec 16)) :=
  (read8_context _).bind fun _ => (read8_context _).bind fun _ => Keeps.pure _

theorem push8_context (v : BitVec 8) : Keeps SameContext (push8 v : Exec ω Unit) :=
  Keeps.get.bind fun _ => (write8_context _ _).bind fun _ => regs_context fun _ => rfl

theorem pull8_context : Keeps SameContext (pull8 : Exec ω (BitVec 8)) :=
  Keeps.bind (regs_context fun _ => rfl) fun _ => Keeps.get.bind fun _ => read8_context _

theorem push16_context (v : BitVec 16) : Keeps SameContext (push16 v : Exec ω Unit) :=
  (push8_context _).bind fun _ => push8_context _

theorem pull16_context : Keeps SameContext (pull16 : Exec ω (BitVec 16)) :=
  pull8_context.bind fun _ => pull8_context.bind fun _ => Keeps.pure _

theorem fetch_context : Keeps SameContext (fetch : Exec ω (BitVec 8)) :=
  Keeps.get.bind fun _ => Keeps.bind (regs_context fun _ => rfl) fun _ => read8_context _

/-! ## Operands -/

theorem readAt_context (o : Operand) : Keeps SameContext (readAt o : Exec ω (BitVec 8)) := by
  cases o with
  | reg => exact Keeps.get.bind fun _ => Keeps.pure _
  | mem addr => exact read8_context addr
  | flat addr => exact read8_phys_context addr

theorem writeAt_context (o : Operand) (v : BitVec 8) :
    Keeps SameContext (writeAt o v : Exec ω Unit) := by
  cases o with
  | reg => exact regs_context fun _ => rfl
  | mem addr => exact write8_context addr v
  | flat addr => exact write8_phys_context addr v

theorem readQ_context (o : Operand) : Keeps SameContext (readQ o : Exec ω (BitVec 32)) := by
  cases o with
  | reg => exact Keeps.get.bind fun _ => Keeps.pure _
  | mem addr => exact readFour_context (fun _ => read8_context _) _
  | flat addr => exact readFour_context read8_phys_context addr

theorem writeQ_context (o : Operand) (v : BitVec 32) :
    Keeps SameContext (writeQ o v : Exec ω Unit) := by
  cases o with
  | reg => exact regs_context fun _ => rfl
  | mem addr => simpa only [writeQ, write32] using writeFour_context (fun _ _ => write8_context _ _) _ v
  | flat addr => simpa only [writeQ, write32_phys] using writeFour_context write8_phys_context addr v

theorem getAbs_context : Keeps SameContext (getAbs : Exec ω (BitVec 16)) :=
  fetch_context.bind fun _ => fetch_context.bind fun _ => (addCycles_context 2).bind fun _ =>
    Keeps.pure _

theorem getZp_context (index : CPU45GS02State → BitVec 8) :
    Keeps SameContext (getZp index : Exec ω (BitVec 16)) :=
  fetch_context.bind fun _ => (addCycles_context 1).bind fun _ => Keeps.get.bind fun _ => Keeps.pure _

theorem indirect_context (is32BitInd addZ : Bool) :
    Keeps SameContext (indirect is32BitInd addZ : Exec ω Operand) := by
  have pointer : Keeps SameContext (getIndPhys is32BitInd : Exec ω (BitVec 32)) := by
    refine (getZp_context _).bind fun _ => Keeps.ite ?_ ?_
    · exact (readFour_context (fun _ => read8_context _) _).bind fun _ =>
        (addCycles_context _).bind fun _ => Keeps.pure _
    · exact (read16_context _).bind fun _ => (addCycles_context _).bind fun _ => Keeps.pure _
  exact pointer.bind fun _ => Keeps.get.bind fun _ => Keeps.pure _

theorem operand_context (mode : Mode) (isQuad is32BitInd : Bool) :
    Keeps SameContext (operand mode isQuad is32BitInd : Exec ω Operand) := by
  cases mode with
  | imp => exact Keeps.pure _
  | imm =>
    exact Keeps.get.bind fun _ => Keeps.bind (regs_context fun _ => rfl) fun _ => Keeps.pure _
  | zp | zpx | zpy => exact (getZp_context _).bind fun _ => Keeps.pure _
  | abs => exact getAbs_context.bind fun _ => Keeps.pure _
  | absx | absy => exact getAbs_context.bind fun _ => Keeps.get.bind fun _ => Keeps.pure _
  | indx =>
    refine Keeps.bind ?_ fun _ => Keeps.pure _
    exact fetch_context.bind fun _ => Keeps.get.bind fun _ => (read16_context _).bind fun _ =>
      (addCycles_context _).bind fun _ => Keeps.pure _
  | indy | stackRel =>
    refine Keeps.bind ?_ fun _ => Keeps.pure _
    exact fetch_context.bind fun _ => Keeps.get.bind fun _ => (read16_context _).bind fun _ =>
      (addCycles_context _).bind fun _ => Keeps.get.bind fun _ => Keeps.pure _
  | indz | indzq => exact indirect_context _ _

/-! ## Instructions -/

theorem loaded_context {f : CPU45GS02State → BitVec 8 → CPU45GS02State}
    (mode : ∀ s v, (f s v).hypervisor = s.hypervisor) (o : Operand) :
    Keeps SameContext (loaded f o : Exec ω Unit) :=
  (readAt_context o).bind fun v => regs_context fun s => mode s v

theorem loadedQ_context {f : CPU45GS02State → BitVec 32 → CPU45GS02State}
    (mode : ∀ s v, (f s v).hypervisor = s.hypervisor) (o : Operand) :
    Keeps SameContext (loadedQ f o : Exec ω Unit) :=
  (readQ_context o).bind fun v => regs_context fun s => mode s v

theorem stepQ_context (by_ : BitVec 32) (o : Operand) :
    Keeps SameContext (stepQ by_ o : Exec ω Unit) :=
  (readQ_context o).bind fun _ => (writeQ_context o _).bind fun _ => regs_context fun _ => rfl

theorem shiftedQ_context (f : BitVec 8 → BitVec 32 → Bool × BitVec 32) (o : Operand) :
    Keeps SameContext (shiftedQ f o : Exec ω Unit) :=
  (readQ_context o).bind fun _ => Keeps.get.bind fun _ =>
    Keeps.bind (regs_context fun _ => rfl) fun _ => (writeQ_context o _).bind fun _ =>
      regs_context fun _ => rfl

theorem doAdc8_mode (s : CPU45GS02State) (v : BitVec 8) : (s.doAdc8 v).hypervisor = s.hypervisor := by
  unfold CPU45GS02State.doAdc8
  split
  · unfold CPU45GS02State.adcDecimal
    extract_lets
    split <;> rfl
  · rfl

theorem doSbc8_mode (s : CPU45GS02State) (v : BitVec 8) : (s.doSbc8 v).hypervisor = s.hypervisor := by
  unfold CPU45GS02State.doSbc8
  split <;> rfl

theorem popped_context {f : CPU45GS02State → BitVec 8 → CPU45GS02State}
    (mode : ∀ s v, (f s v).hypervisor = s.hypervisor) : Keeps SameContext (popped f : Exec ω Unit) :=
  pull8_context.bind fun v => regs_context fun s => mode s v

theorem enter_context (status mask : BitVec 8 → BitVec 8) (vector : BitVec 16) :
    Keeps SameContext (enter status mask vector : Exec ω Unit) :=
  Keeps.get.bind fun _ => (push16_context _).bind fun _ => Keeps.get.bind fun _ =>
    (push8_context _).bind fun _ => Keeps.bind (regs_context fun _ => rfl) fun _ =>
      (read16_context _).bind fun _ => jump_context _

theorem opMAP_context : Keeps SameContext (opMAP : Exec ω Unit) := by
  refine Keeps.bind (Keeps.modify fun c => ?_) fun _ => regs_context fun _ => rfl
  split
  · exact ⟨rfl, rfl, rfl⟩
  · exact .refl c

theorem call_context (op : BitVec 8) (fn : Fn) (o : Operand) :
    Keeps SameContext (call op fn o : Exec ω Unit) := by
  cases fn with
  | ADC => exact loaded_context doAdc8_mode o
  | SBC => exact loaded_context doSbc8_mode o
  | AND | ORA | EOR | CMP | CPX | CPY | CPZ | BIT | LDA | LDX | LDY | LDZ =>
    refine loaded_context ?_ o
    intro s v
    rfl
  | STA | STX | STY | STZ => exact Keeps.get.bind fun _ => writeAt_context o _
  | TSB | TRB =>
    exact (readAt_context o).bind fun _ => Keeps.bind (regs_context fun _ => rfl) fun _ =>
      Keeps.get.bind fun _ => writeAt_context o _
  | INC | DEC =>
    exact (readAt_context o).bind fun _ => (writeAt_context o _).bind fun _ =>
      regs_context fun _ => rfl
  | ASL | LSR | ASR | ROL | ROR =>
    exact (readAt_context o).bind fun _ => Keeps.get.bind fun _ =>
      Keeps.bind (regs_context fun _ => rfl) fun _ => (writeAt_context o _).bind fun _ =>
        regs_context fun _ => rfl
  | INW | DEW | ASW | ROW =>
    exact (read16_context _).bind fun _ => Keeps.get.bind fun _ =>
      Keeps.bind (regs_context fun _ => rfl) fun _ => (write8_context _ _).bind fun _ =>
        (write8_context _ _).bind fun _ => regs_context fun _ => rfl
  | RMB | SMB => exact (readAt_context o).bind fun _ => writeAt_context o _
  | NEG | CLC | CLD | CLE | CLI | CLV | SEC | SED | SEE | SEI | INX | INY | INZ | DEX | DEY | DEZ
  | TAX | TAY | TAZ | TAB | TXA | TYA | TZA | TBA | TSX | TSY | TXS | TYS =>
    refine regs_context ?_
    intro s
    rfl
  | PHA | PHX | PHY | PHZ | PHP => exact Keeps.get.bind fun _ => push8_context _
  | PLA | PLX | PLY | PLZ | PLP =>
    refine popped_context ?_
    intro s v
    rfl
  | PHW =>
    exact (read8_context _).bind fun _ => (read8_context _).bind fun _ =>
      (push8_context _).bind fun _ => push8_context _
  | PHWI => exact (push8_context _).bind fun _ => push8_context _
  | JMP => exact jump_context _
  | JMPIND => exact (read16_context _).bind fun _ => jump_context _
  | JSR => exact Keeps.get.bind fun _ => (push16_context _).bind fun _ => jump_context _
  | JSRIND =>
    exact (read16_context _).bind fun _ => Keeps.get.bind fun _ => (push16_context _).bind fun _ =>
      jump_context _
  | BSR =>
    exact Keeps.get.bind fun _ => (read16_context _).bind fun _ => (push16_context _).bind fun _ =>
      regs_context fun _ => rfl
  | RTS => exact pull16_context.bind fun _ => jump_context _
  | RTI =>
    have status : Keeps SameContext (popped pulledStatus : Exec ω Unit) :=
      popped_context fun _ _ => rfl
    exact status.bind fun _ => pull16_context.bind fun _ => jump_context _
  | RTN =>
    exact pull16_context.bind fun _ => fetch_context.bind fun _ => (jump_context _).bind fun _ =>
      regs_context fun _ => rfl
  | BRK => exact Keeps.bind (regs_context fun _ => rfl) fun _ => enter_context _ _ _
  | branch k =>
    exact (readAt_context o).bind fun _ => Keeps.get.bind fun _ => Keeps.ite
      (Keeps.bind (regs_context fun _ => rfl) fun _ => addCycles_context 1) (Keeps.pure _)
  | longBranch k =>
    refine Keeps.get.bind fun _ => (read16_context _).bind fun _ =>
      Keeps.bind (regs_context fun _ => rfl) fun _ => Keeps.get.bind fun _ => Keeps.ite ?_ ?_
    · exact Keeps.bind (regs_context fun _ => rfl) fun _ => (addCycles_context 1).bind fun _ =>
        addCycles_context 2
    · exact Keeps.bind (regs_context fun _ => rfl) fun _ => addCycles_context 2
  | branchOnBit on =>
    exact (readAt_context o).bind fun _ => fetch_context.bind fun _ =>
      Keeps.ite (regs_context fun _ => rfl) (Keeps.pure _)
  | MAP => exact opMAP_context
  | EOM => exact regs_context fun _ => rfl

theorem callQ_context (fn : QuadFn) (o : Operand) :
    Keeps SameContext (callQ fn o : Exec ω Unit) := by
  cases fn with
  | LDQ | ADCQ | SBCQ | CMPQ | ANDQ | ORAQ | EORQ | BITQ =>
    refine loadedQ_context ?_ o
    intro s v
    rfl
  | STQ => exact Keeps.get.bind fun _ => writeQ_context o _
  | INQ | DEQ =>
    simp only [callQ]
    exact stepQ_context _ o
  | ASLQ | LSRQ | ASRQ | ROLQ | RORQ =>
    simp only [callQ]
    exact shiftedQ_context _ o
  | NEGQ => exact regs_context fun _ => rfl

theorem shouldConsume_context : Keeps SameContext (shouldConsume : Exec ω Bool) := by
  refine Keeps.get.bind fun c => ?_
  have last (consume : Bool) : Keeps SameContext (do
      let op ← read8 (c.state.pc + 1)
      return consume && !isQuadImmediateOpcode op : Exec ω Bool) :=
    (read8_context _).bind fun _ => Keeps.pure _
  exact Keeps.ite ((read8_context _).bind fun _ => last _) (last true)

theorem fetchOpcode_context (rounds : ℕ) (f : Fetched) :
    Keeps SameContext (fetchOpcode rounds f : Exec ω Fetched) := by
  induction rounds generalizing f with
  | zero => exact Keeps.pure _
  | succ rounds ih =>
    refine fetch_context.bind fun op => (addCycles_context 1).bind fun _ =>
      Keeps.ite ?_ (Keeps.ite ?_ (Keeps.pure _))
    · refine Keeps.get.bind fun _ => (read8_context _).bind fun _ => Keeps.ite ?_ (Keeps.pure _)
      refine shouldConsume_context.bind fun _ => Keeps.ite ?_ (Keeps.pure _)
      exact Keeps.bind (regs_context fun _ => rfl) fun _ => (addCycles_context 1).bind fun _ => ih _
    · refine Keeps.get.bind fun _ => (read8_context _).bind fun _ => Keeps.ite (ih _) (Keeps.pure _)

theorem perform_context (f : Fetched) (o : Operand) :
    Keeps SameContext (perform f o : Exec ω Unit) := by
  unfold perform
  split
  · exact (callQ_context _ o).bind fun _ => addCycles_context _
  · exact (call_context _ _ o).bind fun _ => addCycles_context _

theorem execute_context : Keeps SameContext (execute : Exec ω Unit) :=
  (fetchOpcode_context _ _).bind fun _ => (operand_context _ _ _).bind fun _ => perform_context _ _

/-! ## The step -/

theorem observe_context (w : Wiring ω) : Keeps SameContext (observe w : Exec ω Bool) := by
  intro c
  unfold observe
  split
  · exact .refl c
  · split
    · exact ⟨rfl, rfl, rfl⟩
    · exact ⟨rfl, rfl, rfl⟩

theorem interrupt_context (vector : BitVec 16) : Keeps SameContext (interrupt vector : Exec ω ℕ) :=
  (enter_context _ _ vector).bind fun _ => (addCycles_context 7).bind fun _ => Keeps.pure _

/-- A configured intercept may do what a routine would. -/
def Wiring.Intercepts (w : Wiring ω) : Prop :=
  ∀ hook, w.pcHook = some hook → ∀ c, SameContext c (hook.fire c).2

omit [MachineBus ω] in
theorem intercept_context {w : Wiring ω} (intercepts : w.Intercepts) :
    Keeps SameContext (intercept w : Exec ω Bool) := by
  intro c
  unfold intercept
  split
  next hook wired =>
    split
    · exact intercepts hook wired c
    · exact .refl c
  · exact .refl c

/-- A step, interrupts included, leaves the context alone. -/
theorem step_context {w : Wiring ω} (intercepts : w.Intercepts) :
    Keeps SameContext (step w : Exec ω ℕ) := by
  refine Keeps.get.bind fun _ => Keeps.ite ?_ ?_
  · exact Keeps.bind (regs_context fun _ => rfl) fun _ => Keeps.pure _
  refine Keeps.bind (regs_context fun _ => rfl) fun _ => Keeps.get.bind fun _ => Keeps.ite ?_ ?_
  · exact Keeps.bind (regs_context fun _ => rfl) fun _ => interrupt_context _
  refine Keeps.bind (regs_context fun _ => rfl) fun _ => Keeps.get.bind fun _ =>
    Keeps.ite (interrupt_context _) ?_
  refine (intercept_context intercepts).bind fun _ => Keeps.ite ?_ ?_
  · exact (addCycles_context 6).bind fun _ => Keeps.pure _
  refine Keeps.get.bind fun _ => (observe_context w).bind fun _ => Keeps.ite ?_ (Keeps.pure _)
  exact execute_context.bind fun _ => Keeps.get.bind fun _ => Keeps.pure _

end Mmemu.Source.Cpu45gs02
