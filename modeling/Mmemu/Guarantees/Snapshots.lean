import Mmemu.Library.UndoLog
import Mmemu.Source.Cpu6502Frame
import Mmemu.Source.Snapshots

/-!
# VICE snapshots: failures and round trips

Loading applies the modules of a file one after the other. What a failed load changed is what
the modules before the failing one brought. A round trip goes through the saver's memory map,
where ROM and chips hide RAM, and through the loader's, where chips take writes.
-/
namespace Mmemu.Guarantees.ViceSnapshots
open Mmemu.Source.MemoryBus
open Mmemu.Source.C64Pla
open Mmemu.Source.Cpu6502 (CPU6502State regRead regWrite)
open Mmemu.Source.ViceSnapshot
open Mmemu.Library.LittleEndian
open Mmemu.Library.UndoLog

/-! ## A file as its modules -/

structure Module where
  name : List Byte
  data : List Byte

/-- Why a module is refused. -/
def Module.error (mod : Module) : Option String :=
  if mod.name = ascii "CPU" ∧ mod.data.length < 7 then some "CPU module too small"
  else if mod.name = ascii "RAM" ∧ mod.data.length < 4 then some "RAM module header incomplete"
  else none

/-- The length that a module's header names. -/
def bodyLength (file : List Byte) : ℕ := decode ((file.drop 20).take 4)

/-- The first module of a file that holds one. -/
def first (file : List Byte) : Module :=
  ⟨cString (file.take 16), (file.drop 24).take (bodyLength file)⟩

/-- The modules that are applied, and the error behind them. -/
def parseModules (file : List Byte) : List Module × Option String :=
  if file.length < 24 then ([], none)
  else if (file.drop 24).length < bodyLength file then ([], some "Module data exceeds file size")
  else
    match (first file).error with
    | some e => ([], some e)
    | none =>
      let rest := parseModules ((file.drop 24).drop (bodyLength file))
      (first file :: rest.1, rest.2)
termination_by file.length
decreasing_by
  simp only [List.length_drop]
  omega

def parse (file : List Byte) : List Module × Option String :=
  if file.length < 40 then ([], some "File too small for VICE snapshot header")
  else if cString (file.take 16) ≠ ascii "VICE Snapshot" then
    ([], some "Invalid VICE snapshot magic")
  else parseModules (file.drop 40)

/-- The writes of a RAM module. -/
def Module.writes (mod : Module) : List (BitVec 16 × Byte) :=
  if mod.name = ascii "RAM" then
    ((mod.data.drop 4).take (decode (mod.data.take 4))).zipIdx.map fun byte =>
      (BitVec.ofNat 16 byte.2, byte.1)
  else []

section Modules
variable {δ : Type} [C64Devices δ]

def writeRam (b : C64Bus δ) (writes : List (BitVec 16 × Byte)) : C64Bus δ :=
  writeAll (fun b a v => b.write8 (a.setWidth 32) v) b writes

def Module.apply (m : C64 δ) (mod : Module) : C64 δ :=
  { cpu := if mod.name = ascii "CPU" then setRegisters mod.data m.cpu else m.cpu
    bus := writeRam m.bus mod.writes }

theorem write8_ofNat (b : C64Bus δ) (i : ℕ) (v : Byte) :
    b.write8 (BitVec.ofNat 32 i) v = b.write8 ((BitVec.ofNat 16 i).setWidth 32) v := by
  have same : ((BitVec.ofNat 16 i).setWidth 32).setWidth 16 = (BitVec.ofNat 32 i).setWidth 16 := by
    simp
  unfold C64Bus.write8
  rw [same]

theorem names_differ : ascii "CPU" ≠ ascii "RAM" := by decide

/-- Loading a module is refusing it or applying it. -/
theorem loadModule_eq (mod : Module) (m : C64 δ) :
    loadModule mod.name mod.data m =
      match mod.error with
      | some e => .error e
      | none => .ok (mod.apply m) := by
  unfold loadModule
  by_cases cpu : mod.name = ascii "CPU"
  · have other : ¬ mod.name = ascii "RAM" := fun ram => names_differ (cpu.symm.trans ram)
    have applied : mod.apply m = { m with cpu := setRegisters mod.data m.cpu } := by
      rw [Module.apply, Module.writes, if_pos cpu, if_neg other]
      rfl
    by_cases short : mod.data.length < 7
    · have error : mod.error = some "CPU module too small" := by
        rw [Module.error, if_pos ⟨cpu, short⟩]
      rw [if_pos cpu, loadCpuModule, if_pos short, error]
      rfl
    · have error : mod.error = none := by
        rw [Module.error, if_neg fun at_ => short at_.2, if_neg fun at_ => other at_.1]
      rw [if_pos cpu, loadCpuModule, if_neg short, error, applied]
      rfl
  · rw [if_neg cpu]
    by_cases ram : mod.name = ascii "RAM"
    · rw [if_pos ram]
      by_cases short : mod.data.length < 4
      · have error : mod.error = some "RAM module header incomplete" := by
          rw [Module.error, if_neg fun at_ => cpu at_.1, if_pos ⟨ram, short⟩]
        rw [loadRamModule, if_pos short, error]
        rfl
      · have error : mod.error = none := by
          rw [Module.error, if_neg fun at_ => cpu at_.1, if_neg fun at_ => short at_.2]
        rw [loadRamModule, if_neg short, error, Module.apply, if_neg cpu, Module.writes, if_pos ram]
        refine congrArg (fun bus : C64Bus δ =>
          (Except.ok { m with bus := bus } : Except String (C64 δ))) ?_
        rw [writeRam, writeAll, List.foldl_map]
        exact congrArg (fun f => List.foldl f m.bus _)
          (funext fun b => funext fun byte => write8_ofNat b byte.2 byte.1)
    · have error : mod.error = none := by
        rw [Module.error, if_neg fun at_ => cpu at_.1, if_neg fun at_ => ram at_.1]
      rw [if_neg ram, error, Module.apply, if_neg cpu, Module.writes, if_neg ram]
      rfl

/-- Loading is applying the modules in order. -/
theorem loadModules_eq (file : List Byte) (m : C64 δ) :
    loadModules file m = ((parseModules file).2, (parseModules file).1.foldl Module.apply m) := by
  induction file, m using loadModules.induct with
  | case1 file m ended =>
    rw [loadModules, parseModules, if_pos ended, if_pos ended]
    rfl
  | case2 file m more length long =>
    rw [loadModules, parseModules, if_neg more, if_neg more]
    exact (if_pos long).trans (by rw [if_pos (show _ < bodyLength file from long)]; rfl)
  | case3 file m more name length fits e refused =>
    have loaded := loadModule_eq (first file) m
    have refused' : loadModule (first file).name (first file).data m = .error e := refused
    rw [loadModules, parseModules, if_neg more, if_neg more,
      if_neg (show ¬ _ < bodyLength file from fits)]
    refine (if_neg fits).trans ?_
    rw [refused'] at loaded
    cases error : (first file).error with
    | some e' =>
      rw [error] at loaded
      cases loaded
      simp only [refused, length, name]
      rfl
    | none =>
      rw [error] at loaded
      cases loaded
  | case4 file m more name length fits m' applied ih =>
    have loaded := loadModule_eq (first file) m
    have applied' : loadModule (first file).name (first file).data m = .ok m' := applied
    rw [loadModules, parseModules, if_neg more, if_neg more,
      if_neg (show ¬ _ < bodyLength file from fits)]
    refine (if_neg fits).trans ?_
    rw [applied'] at loaded
    cases error : (first file).error with
    | some e' =>
      rw [error] at loaded
      cases loaded
    | none =>
      rw [error] at loaded
      cases loaded
      simp only [applied, length, name]
      exact ih

/-- What a load comes to: the error of the file, and its modules applied. -/
theorem load_eq (file : List Byte) (m : C64 δ) :
    load file m = ((parse file).2, (parse file).1.foldl Module.apply m) := by
  unfold load parse
  split
  · rfl
  · split
    · rfl
    · exact loadModules_eq _ m

/-! ## What the modules change -/

/-- The CPU module that is applied last. -/
def lastCpu (modules : List Module) : Option Module :=
  (modules.filter fun mod => mod.name = ascii "CPU").getLast?

theorem setRegisters_idem (data before : List Byte) (cpu : CPU6502State) :
    setRegisters data (setRegisters before cpu) = setRegisters data cpu := rfl

theorem cpu_applied (modules : List Module) (m : C64 δ) :
    (modules.foldl Module.apply m).cpu =
      match lastCpu modules with
      | some mod => setRegisters mod.data m.cpu
      | none => m.cpu := by
  induction modules using List.reverseRecOn with
  | nil => rfl
  | append_singleton modules mod ih =>
    rw [List.foldl_concat, lastCpu, List.filter_append]
    by_cases cpu : mod.name = ascii "CPU"
    · have last : [mod].filter (fun mod => mod.name = ascii "CPU") = [mod] := by simp [cpu]
      rw [last, List.getLast?_concat, Module.apply, if_pos cpu, ih]
      cases lastCpu modules with
      | none => rfl
      | some before => exact setRegisters_idem _ _ _
    · have last : [mod].filter (fun mod => mod.name = ascii "CPU") = [] := by simp [cpu]
      rw [last, List.append_nil, Module.apply, if_neg cpu, ih]
      rfl

theorem bus_applied (modules : List Module) (m : C64 δ) :
    (modules.foldl Module.apply m).bus = writeRam m.bus (modules.flatMap Module.writes) := by
  induction modules generalizing m with
  | nil => rfl
  | cons mod modules ih =>
    rw [List.foldl_cons, ih, List.flatMap_cons]
    exact (List.foldl_append ..).symm

/-- A byte of RAM after writes: the last one that lands there. -/
theorem ram_writeRam (b : C64Bus δ) (writes : List (BitVec 16 × Byte)) (x : BitVec 16) :
    (writeRam b writes).ram x =
      (lastHit (fun a x => a = x ∧ b.pla.stores δ a = true) writes x).getD (b.ram x) :=
  (C64Bus.overwrites b.pla).read_writeAll rfl writes x

/-! ## Failures -/

/-- The CPU and every byte of RAM are as they were. -/
structure Unchanged (m m' : C64 δ) : Prop where
  cpu : m'.cpu = m.cpu
  ram : m'.bus.ram = m.bus.ram

/-- A load that reports a failure changes nothing. -/
def FailsCleanly (file : List Byte) (m : C64 δ) : Prop :=
  ∀ e, (load file m).1 = some e → Unchanged m (load file m).2

/-- The modules hold what the machine has: the last CPU module its registers, and the last byte
for each place of RAM the byte that is there. -/
structure HoldAlready (modules : List Module) (m : C64 δ) : Prop where
  cpu : ∀ mod, lastCpu modules = some mod → setRegisters mod.data m.cpu = m.cpu
  ram : ∀ x v, lastHit (fun a x => a = x ∧ m.bus.pla.stores δ a = true)
    (modules.flatMap Module.writes) x = some v → v = m.bus.ram x

theorem unchanged_iff (modules : List Module) (m : C64 δ) :
    Unchanged m (modules.foldl Module.apply m) ↔ HoldAlready modules m := by
  have cpu : (modules.foldl Module.apply m).cpu = m.cpu ↔
      ∀ mod, lastCpu modules = some mod → setRegisters mod.data m.cpu = m.cpu := by
    rw [cpu_applied]
    cases lastCpu modules with
    | none => simp
    | some mod => simp
  have ram : (modules.foldl Module.apply m).bus.ram = m.bus.ram ↔
      ∀ x v, lastHit (fun a x => a = x ∧ m.bus.pla.stores δ a = true)
        (modules.flatMap Module.writes) x = some v → v = m.bus.ram x := by
    rw [bus_applied]
    exact (C64Bus.overwrites m.bus.pla).read_writeAll_eq_iff rfl _
  constructor
  · rintro ⟨sameCpu, sameRam⟩
    exact ⟨cpu.mp sameCpu, ram.mp sameRam⟩
  · rintro ⟨holdsCpu, holdsRam⟩
    exact ⟨cpu.mpr holdsCpu, ram.mpr holdsRam⟩

theorem failsCleanly_iff (file : List Byte) (m : C64 δ) :
    FailsCleanly file m ↔ ((parse file).2.isSome = true → HoldAlready (parse file).1 m) := by
  unfold FailsCleanly
  rw [load_eq]
  simp only [unchanged_iff]
  cases (parse file).2 with
  | none => simp
  | some e => simp

/-! ## Saved files -/

theorem length_field (text : List Byte) : (field text).length = 16 := by
  have short : ((cString text).take 15).length ≤ 15 := by simp
  simp only [field, List.length_append, List.length_replicate]
  omega

/-- A module reads as it was written, whatever follows. -/
theorem parseModules_module (name data rest : List Byte) (fits : data.length < 256 ^ 4)
    (sound : (Module.mk (cString (field name)) data).error = none) :
    parseModules (module_ name data ++ rest) =
      (⟨cString (field name), data⟩ :: (parseModules rest).1, (parseModules rest).2) := by
  have header : (field name ++ encode 4 1 ++ encode 4 data.length).length = 24 := by
    simp [length_field]
  have body : bodyLength (module_ name data ++ rest) = data.length := by
    have laid : module_ name data ++ rest =
        (field name ++ encode 4 1) ++ (encode 4 data.length ++ (data ++ rest)) := by
      simp [module_, List.append_assoc]
    rw [bodyLength, laid, List.drop_left' (by simp [length_field]), List.take_left' (by simp),
      decode_encode, Nat.mod_eq_of_lt fits]
  have behind : (module_ name data ++ rest).drop 24 = data ++ rest := by
    rw [module_, List.append_assoc, List.drop_left' header]
  have named : (module_ name data ++ rest).take 16 = field name := by
    simp only [module_, List.append_assoc]
    exact List.take_left' (length_field name)
  have read : first (module_ name data ++ rest) = ⟨cString (field name), data⟩ := by
    rw [first, named, behind, body, List.take_left' rfl]
  have long : ¬ (module_ name data ++ rest).length < 24 := by
    simp only [module_, List.length_append] at header ⊢
    omega
  have whole : ¬ ((module_ name data ++ rest).drop 24).length <
      bodyLength (module_ name data ++ rest) := by
    rw [behind, body, List.length_append]
    omega
  rw [parseModules, if_neg long, if_neg whole, read, sound, behind, body, List.drop_left' rfl]

theorem parse_header (machineType rest : List Byte) :
    parse (fileHeader machineType ++ rest) = parseModules rest := by
  have magic : cString (field (ascii "VICE Snapshot")) = ascii "VICE Snapshot" := by decide
  have header : (fileHeader machineType).length = 40 := by simp [fileHeader, length_field]
  have named : (fileHeader machineType ++ rest).take 16 = field (ascii "VICE Snapshot") := by
    simp only [fileHeader, List.append_assoc]
    exact List.take_left' (length_field _)
  have long : ¬ (fileHeader machineType ++ rest).length < 40 := by
    rw [List.length_append, header]
    omega
  rw [parse, if_neg long, named, if_neg (by rw [magic]; simp), List.drop_left' header]

theorem parse_save (machineType : List Byte) (m : C64 δ) :
    parse (save machineType m) =
      ([⟨ascii "CPU", createCpuModule m.cpu⟩, ⟨ascii "RAM", createRamModule m.bus⟩], none) := by
  have cpuName : cString (field (ascii "CPU")) = ascii "CPU" := by decide
  have ramName : cString (field (ascii "RAM")) = ascii "RAM" := by decide
  have cpuLength : (createCpuModule m.cpu).length = 7 := by simp [createCpuModule]
  have ramLength : (createRamModule m.bus).length = 65540 := by simp [createRamModule]
  have cpu := parseModules_module (ascii "CPU") (createCpuModule m.cpu)
    (module_ (ascii "RAM") (createRamModule m.bus)) (by rw [cpuLength]; decide)
    (by rw [cpuName, Module.error, if_neg (by simp [cpuLength]), if_neg (by simp [names_differ])])
  have ram := parseModules_module (ascii "RAM") (createRamModule m.bus) [] (by rw [ramLength]; decide)
    (by rw [ramName, Module.error, if_neg (by simp [ramLength]), if_neg (by simp [ramLength])])
  have ended : parseModules [] = ([], none) := by rw [parseModules, if_pos (by decide)]
  rw [List.append_nil, ended, ramName] at ram
  rw [ram, cpuName] at cpu
  rw [save, List.append_assoc, parse_header, cpu]

/-! ## Round trips -/

/-- The registers of the descriptor table that a snapshot holds. -/
def registers (cpu : CPU6502State) : BitVec 16 × List Byte :=
  (cpu.pc, [cpu.a, cpu.x, cpu.y, cpu.sp, cpu.p])

/-- Saving one machine and loading the file into another restores registers and RAM. -/
structure RoundTrip (machineType : List Byte) (saved other : C64 δ) : Prop where
  loads : (load (save machineType saved) other).1 = none
  cpu : registers (load (save machineType saved) other).2.cpu = registers saved.cpu
  ram : (load (save machineType saved) other).2.bus.ram = saved.bus.ram

theorem registers_restored (cpu other : CPU6502State) :
    registers (setRegisters (createCpuModule cpu) other) = registers cpu := by
  have pc : BitVec.ofNat 16 (decode ((createCpuModule cpu).take 2)) = cpu.pc := by
    rw [createCpuModule, List.take_left' (length_encode 2 _), ofNat_decode_encode 2 _ (by decide)]
  simp only [registers, setRegisters, regWrite, pc]
  simp [createCpuModule, encode, regRead]

theorem peek8_ofNat (b : C64Bus δ) (i : ℕ) :
    b.peek8 (BitVec.ofNat 32 i) = b.peek8 ((BitVec.ofNat 16 i).setWidth 32) := by
  have same : ((BitVec.ofNat 16 i).setWidth 32).setWidth 16 = (BitVec.ofNat 32 i).setWidth 16 := by
    simp
  unfold C64Bus.peek8
  rw [same]

/-- The writes of a saved RAM module: each address, with what the saver's map shows there. -/
theorem writes_saved (b : C64Bus δ) :
    (Module.mk (ascii "RAM") (createRamModule b)).writes =
      (List.range 65536).map fun i => (BitVec.ofNat 16 i, b.peek8 ((BitVec.ofNat 16 i).setWidth 32)) := by
  have size : decode ((createRamModule b).take 4) = 65536 := by
    rw [createRamModule, List.take_left' (length_encode 4 _), decode_encode]
    rfl
  rw [Module.writes, if_pos rfl, size]
  simp only [createRamModule]
  rw [List.drop_left' (length_encode 4 _), List.take_of_length_le (by simp)]
  refine List.ext_getElem (by simp) fun i inside _ => ?_
  simp only [List.getElem_map, List.getElem_zipIdx, List.getElem_range, Nat.zero_add]
  exact congrArg _ (peek8_ofNat b i)

/-- Writes in which an address always has one byte. -/
theorem lastHit_map (f : BitVec 16 → Byte) (stores : BitVec 16 → Bool) (indices : List ℕ)
    (x : BitVec 16) :
    lastHit (fun a x => a = x ∧ stores a = true)
        (indices.map fun i => (BitVec.ofNat 16 i, f (BitVec.ofNat 16 i))) x =
      if stores x = true ∧ ∃ i ∈ indices, BitVec.ofNat 16 i = x then some (f x) else none := by
  induction indices using List.reverseRecOn with
  | nil => simp [lastHit]
  | append_singleton indices i ih =>
    rw [List.map_append, List.map_singleton, lastHit_concat, ih]
    by_cases hit : BitVec.ofNat 16 i = x ∧ stores (BitVec.ofNat 16 i) = true
    · have stored : stores x = true ∧ ∃ j ∈ indices ++ [i], BitVec.ofNat 16 j = x :=
        ⟨hit.1 ▸ hit.2, i, by simp, hit.1⟩
      rw [if_pos hit, if_pos stored, hit.1]
    · have same : (stores x = true ∧ ∃ j ∈ indices, BitVec.ofNat 16 j = x) ↔
          (stores x = true ∧ ∃ j ∈ indices ++ [i], BitVec.ofNat 16 j = x) := by
        refine and_congr_right fun stored => ?_
        constructor
        · rintro ⟨j, mem, at_⟩
          exact ⟨j, List.mem_append_left _ mem, at_⟩
        · rintro ⟨j, mem, at_⟩
          rcases List.mem_append.mp mem with before | last
          · exact ⟨j, before, at_⟩
          · rw [List.mem_singleton.mp last] at at_
            exact absurd ⟨at_, at_ ▸ stored⟩ hit
      rw [if_neg hit]
      exact if_congr same rfl rfl

/-- RAM after a saved file is loaded. -/
theorem ram_restored (machineType : List Byte) (saved other : C64 δ) (x : BitVec 16) :
    (load (save machineType saved) other).2.bus.ram x =
      if other.bus.pla.stores δ x then saved.bus.peek8 (x.setWidth 32) else other.bus.ram x := by
  have none_ : (Module.mk (ascii "CPU") (createCpuModule saved.cpu)).writes = [] := by
    rw [Module.writes, if_neg names_differ]
  have writes : [Module.mk (ascii "CPU") (createCpuModule saved.cpu),
      ⟨ascii "RAM", createRamModule saved.bus⟩].flatMap Module.writes =
      (List.range 65536).map fun i =>
        (BitVec.ofNat 16 i, saved.bus.peek8 ((BitVec.ofNat 16 i).setWidth 32)) := by
    rw [List.flatMap_cons, none_, List.flatMap_singleton, writes_saved, List.nil_append]
  have named : ∃ i ∈ List.range 65536, BitVec.ofNat 16 i = x :=
    ⟨x.toNat, List.mem_range.mpr (by have inside := x.isLt; omega), by simp⟩
  have bus : (load (save machineType saved) other).2.bus = writeRam other.bus
      ((List.range 65536).map fun i =>
        (BitVec.ofNat 16 i, saved.bus.peek8 ((BitVec.ofNat 16 i).setWidth 32))) := by
    rw [load_eq, parse_save, ← writes]
    exact bus_applied _ other
  have last := lastHit_map (fun a => saved.bus.peek8 (a.setWidth 32)) (other.bus.pla.stores δ)
    (List.range 65536) x
  generalize List.range 65536 = indices at bus last named
  rw [bus, ram_writeRam, last]
  by_cases stored : other.bus.pla.stores δ x = true
  · rw [if_pos ⟨stored, named⟩, if_pos stored, Option.getD_some]
  · rw [if_neg fun at_ => stored at_.1, if_neg stored, Option.getD_none]

/-- Where the loader's map takes a write to RAM, the saver's map shows its RAM or a byte equal to
it; elsewhere both machines hold the same byte. -/
def RamShows (saved other : C64 δ) : Prop :=
  ∀ x, if other.bus.pla.stores δ x then saved.bus.peek8 (x.setWidth 32) = saved.bus.ram x
    else other.bus.ram x = saved.bus.ram x

theorem roundTrip_iff (machineType : List Byte) (saved other : C64 δ) :
    RoundTrip machineType saved other ↔ RamShows saved other := by
  have loads : (load (save machineType saved) other).1 = none := by rw [load_eq, parse_save]
  have cpu : registers (load (save machineType saved) other).2.cpu = registers saved.cpu := by
    have last : lastCpu [⟨ascii "CPU", createCpuModule saved.cpu⟩,
        ⟨ascii "RAM", createRamModule saved.bus⟩] = some ⟨ascii "CPU", createCpuModule saved.cpu⟩ := by
      simp [lastCpu, Ne.symm names_differ]
    rw [load_eq, parse_save, cpu_applied, last]
    exact registers_restored saved.cpu other.cpu
  have ram : (load (save machineType saved) other).2.bus.ram = saved.bus.ram ↔
      RamShows saved other := by
    rw [funext_iff]
    refine forall_congr' fun x => ?_
    rw [ram_restored]
    split
    · rfl
    · rfl
  constructor
  · intro trip
    exact ram.mp trip.ram
  · intro shows
    exact ⟨loads, cpu, ram.mpr shows⟩

/-- Loading is all or nothing, and saving and loading a round trip, exactly when the modules
before a failure bring nothing new and the memory maps hide no RAM. -/
theorem snapshot_iff (file machineType : List Byte) (m saved other : C64 δ) :
    FailsCleanly file m ∧ RoundTrip machineType saved other ↔
      ((parse file).2.isSome = true → HoldAlready (parse file).1 m) ∧ RamShows saved other :=
  and_congr (failsCleanly_iff file m) (roundTrip_iff machineType saved other)

end Modules

/-! ## Two failures -/

/-- Chips that read as $FF and hold nothing. -/
instance : C64Devices Unit where
  takes := C64PLA.isIo
  ioRead _ _ := (0xFF, ())
  ioPeek _ _ := 0xFF
  ioWrite _ _ _ := ()
  inIo _ taken := taken

/-- A Commodore 64 with empty RAM and its KERNAL. -/
def c64 : C64 Unit where
  cpu := { (default : CPU6502State) with sp := 0xFD, p := 0x24 }
  bus :=
    { pla := ⟨true, true, true, false, false, none, some (List.replicate 8192 0xEA), none, none, none⟩
      ram := fun _ => 0
      devices := () }

/-- A CPU module with 1 in A, and a RAM module cut off behind its header. -/
def cutOff : List Byte :=
  fileHeader (ascii "C64") ++ (module_ (ascii "CPU") [0x00, 0x10, 0x01, 0x02, 0x03, 0xFF, 0x30] ++
    (field (ascii "RAM") ++ encode 4 1 ++ encode 4 65540))

theorem parse_cutOff :
    parse cutOff = ([⟨ascii "CPU", [0x00, 0x10, 0x01, 0x02, 0x03, 0xFF, 0x30]⟩],
      some "Module data exceeds file size") := by
  have cpuName : cString (field (ascii "CPU")) = ascii "CPU" := by decide
  have ram : parseModules (field (ascii "RAM") ++ encode 4 1 ++ encode 4 65540) =
      ([], some "Module data exceeds file size") := by
    rw [parseModules, if_neg (by decide), if_pos (by decide)]
  have cpu := parseModules_module (ascii "CPU") [0x00, 0x10, 0x01, 0x02, 0x03, 0xFF, 0x30]
    (field (ascii "RAM") ++ encode 4 1 ++ encode 4 65540) (by decide) (by decide)
  rw [ram, cpuName] at cpu
  rw [cutOff, parse_header, cpu]

/-- The cut-off file fails with the registers changed, and a machine saved with its KERNAL
mapped loses the RAM below it. -/
theorem not_restored_cutOff : ¬ FailsCleanly cutOff c64 ∧ ¬ RoundTrip (ascii "C64") c64 c64 := by
  constructor
  · intro clean
    have hold := (failsCleanly_iff cutOff c64).mp clean (by rw [parse_cutOff]; rfl)
    rw [parse_cutOff] at hold
    have a := congrArg (fun cpu => cpu.a) (hold.cpu _ rfl)
    exact absurd a (by decide)
  · intro trip
    have shows := (roundTrip_iff (ascii "C64") c64 c64).mp trip 0xE000
    exact absurd shows (by decide)

end Mmemu.Guarantees.ViceSnapshots

/-!
# What a snapshot brings back

A session is a run of a machine with the debugger's snapshot commands in between. A snapshot
restores the registers and the memory its bus saves. What a bus does not save, the memory
under the regions of a sparse bus and all memory behind a MAP controller, stays as it is.
-/
namespace Mmemu.Guarantees.SnapshotRestore
open Mmemu.Library.Checkpoint
open Mmemu.Library.GuardedRun
open Mmemu.Library.LittleEndian
open Mmemu.Source
open Mmemu.Source.MemoryBus
open Mmemu.Source.Cpu6502
open Mmemu.Source.Snapshots

section Sessions
variable {κ : Type} [ICore κ]

def system : System (Machine κ) SystemSnapshot (Operation κ) where
  act := Machine.perform
  save := Machine.saveState
  load := Machine.loadState

abbrev Session (κ : Type) := History (Machine κ) SystemSnapshot

/-- What the debugger keeps of a session. -/
def context (h : Session κ) : SnapshotContext κ := ⟨h.now, h.shots.map Prod.fst⟩

/-- The debugger's commands are the steps of the session. -/
theorem context_step (h : Session κ) (index : ℕ) :
    context (system.step h .save) = (context h).saveSnapshot.2 ∧
      context (system.step h (.restore index)) = ((context h).restoreSnapshot index).2 ∧
      context (system.step h (.delete index)) = ((context h).deleteSnapshot index).2 := by
  refine ⟨?_, ?_, ?_⟩
  · simp [context, System.step, system, SnapshotContext.saveSnapshot]
  · simp only [context, System.step, System.restore, SnapshotContext.restoreSnapshot,
      List.getElem?_map]
    cases h.shots[index]? with
    | none => rfl
    | some shot => rfl
  · simp only [context, System.step, SnapshotContext.deleteSnapshot, List.length_map]
    split
    next => simp [List.eraseIdx_map]
    next outside => rw [List.eraseIdx_of_length_le (by omega)]

/-! ## What stays as it was set up -/

inductive SameSetup : SystemBus → SystemBus → Prop where
  | flat {b b' : FlatMemoryBus} {sized sized'} (mask : b'.addrMask = b.addrMask)
      (overlays : b'.overlays = b.overlays) : SameSetup (.flat b sized) (.flat b' sized')
  | sparse {b b' : SparseMemoryBus} (setup : b.SameSetup b') : SameSetup (.sparse b) (.sparse b')
  | map {m m' : MapMmu} (setup : m.SameSetup m') : SameSetup (.map m) (.map m')

theorem SameSetup.refl (bus : SystemBus) : SameSetup bus bus := by
  cases bus with
  | flat b sized => exact .flat rfl rfl
  | sparse b => exact .sparse (.refl b)
  | map m => exact .map (.refl m)

theorem SameSetup.trans {bus bus' bus'' : SystemBus} (h : SameSetup bus bus')
    (h' : SameSetup bus' bus'') : SameSetup bus bus'' := by
  cases h with
  | flat mask overlays =>
    cases h' with
    | flat mask' overlays' => exact .flat (mask'.trans mask) (overlays'.trans overlays)
  | sparse setup =>
    cases h' with
    | sparse setup' => exact .sparse (setup.trans setup')
  | map setup =>
    cases h' with
    | map setup' => exact .map (setup.trans setup')

theorem SameSetup.symm {bus bus' : SystemBus} (h : SameSetup bus bus') : SameSetup bus' bus := by
  cases h with
  | flat mask overlays => exact .flat mask.symm overlays.symm
  | sparse setup => exact .sparse setup.symm
  | map setup => exact .map setup.symm

theorem sameSetup_perform (m : Machine κ) (op : Operation κ) :
    SameSetup m.bus (m.perform op).bus := by
  obtain ⟨cpu, bus⟩ := m
  cases op with
  | registers f => exact .refl bus
  | write8 addr val =>
    cases bus with
    | flat b sized => exact .flat (b.addrMask_write8 addr val) (b.overlays_write8 addr val)
    | sparse b => exact .sparse (b.sameSetup_write8 addr val)
    | map m => exact .map (m.sameSetup_write8 _ addr val)
  | physWrite8 addr val =>
    cases bus with
    | flat b sized => exact .refl _
    | sparse b => exact .refl _
    | map m => exact .map ⟨m.physBus.sameSetup_write8 addr val, rfl, rfl, rfl⟩
  | hyperWrite8 offset val =>
    cases bus with
    | flat b sized => exact .refl _
    | sparse b => exact .refl _
    | map m => exact .map (m.sameSetup_hyperWrite8 offset val)
  | setMapState state =>
    cases bus with
    | flat b sized => exact .refl _
    | sparse b => exact .refl _
    | map m => exact .map ⟨.refl _, rfl, rfl, rfl⟩
  | reset =>
    cases bus with
    | flat b sized => exact .flat rfl rfl
    | sparse b => exact .sparse ⟨rfl, rfl⟩
    | map m => exact .map ⟨.refl _, rfl, rfl, rfl⟩

theorem sameSetup_loadState (m : Machine κ) (snap : SystemSnapshot) :
    SameSetup m.bus (m.loadState snap).bus := by
  obtain ⟨cpu, bus⟩ := m
  cases bus with
  | flat b sized => exact .flat rfl rfl
  | sparse b => exact .sparse (b.sameSetup_loadState _)
  | map m => exact .map ⟨.refl _, rfl, rfl, rfl⟩

theorem sameSetup_run (start : Machine κ) (events : List (Event (Operation κ))) :
    System.Related (fun t now => SameSetup t.bus now.bus) (system.run ⟨start, []⟩ events) := by
  refine system.related_run _ (fun s => .refl s.bus)
    (fun t s b setup => setup.trans (sameSetup_loadState s b)) start events ?_
  have keeping : ∀ (h : Session κ) (e : Event (Operation κ)),
      system.Keeping (fun t now => SameSetup t.bus now.bus) h e := by
    intro h e
    cases e with
    | act op => exact fun shot _ setup => setup.trans (sameSetup_perform h.now op)
    | save | restore | delete => trivial
  exact guarded_of_forall _ _ keeping _ events

/-! ## Restoring -/

/-- After a restore the registers are the saved ones and every address reads as it did. -/
def Restored (h : Session κ) (index : ℕ) (t : Machine κ) : Prop :=
  ((context h).restoreSnapshot index).2.machine.cpu = t.cpu ∧
    ∀ addr, ((context h).restoreSnapshot index).2.machine.peek8 addr = t.peek8 addr

/-- The memory that the bus of `t` shows but does not save holds what it held in `t`. On a
sparse bus this is the host memory under the regions, behind a MAP controller all memory that
the mapping of `t` reaches. -/
def Restorable (t now : Machine κ) : Prop :=
  match t.bus, now.bus with
  | .flat _ _, .flat _ _ => True
  | .sparse b, .sparse b' =>
    ∀ addr pointer, b.readPlace addr = .host pointer → b'.host pointer = b.host pointer
  | .map m, .map m' =>
    ∀ addr, m'.physBus.memory (m.readPlace (ICore.isHypervisor t.cpu) addr) =
      m.physBus.memory (m.readPlace (ICore.isHypervisor t.cpu) addr)
  | _, _ => False

theorem loaded_iff {t now : Machine κ} (setup : SameSetup t.bus now.bus) :
    ((now.loadState t.saveState).cpu = t.cpu ∧
        ∀ addr, (now.loadState t.saveState).peek8 addr = t.peek8 addr) ↔ Restorable t now := by
  have cpu : (now.loadState t.saveState).cpu = t.cpu := ICore.loadState_saveState t.cpu
  rw [and_iff_right cpu]
  unfold Machine.peek8
  rw [cpu]
  obtain ⟨core, bus⟩ := t
  obtain ⟨core', bus'⟩ := now
  cases setup with
  | @flat b b' sized sized' mask overlays =>
    exact iff_of_true (fun addr => b.peek8_loadState b' mask overlays addr) trivial
  | @sparse b b' setup =>
    have back (addr : BitVec 32) : (b'.loadState b.saveState).peek8 addr = b.peek8 addr ↔
        ∀ pointer, b.readPlace addr = .host pointer → b'.host pointer = b.host pointer := by
      have place := (setup.trans (b'.sameSetup_loadState b.saveState)).readPlace addr
      rw [SparseMemoryBus.peek8_eq, SparseMemoryBus.peek8_eq, place,
        SparseMemoryBus.memory_loadState]
      cases b.readPlace addr with
      | host pointer => simp [SparseMemoryBus.memory]
      | page pageAddr offset => simp [SparseMemoryBus.memory]
    exact forall_congr' back
  | @map m m' setup =>
    have back (addr : BitVec 32) :
        (m'.loadState m.saveState).peek8 (ICore.isHypervisor core) addr =
            m.peek8 (ICore.isHypervisor core) addr ↔
          m'.physBus.memory (m.readPlace (ICore.isHypervisor core) addr) =
            m.physBus.memory (m.readPlace (ICore.isHypervisor core) addr) := by
      have loaded : m.SameSetup (m'.loadState m.saveState) :=
        setup.trans ⟨.refl _, rfl, rfl, rfl⟩
      have place := loaded.readPlace (m.mapState_loadState m') (ICore.isHypervisor core) addr
      rw [MapMmu.peek8_eq, MapMmu.peek8_eq, place]
      rfl
    exact forall_congr' back

/-- What the debugger restores in a session is what was saved there. -/
theorem restoreSnapshot_eq {h : Session κ} (saved : system.Saved h) {index : ℕ}
    {shot : SystemSnapshot × Machine κ} (there : h.shots[index]? = some shot) :
    ((context h).restoreSnapshot index).2.machine = h.now.loadState shot.2.saveState := by
  have kept : (context h).snapshots[index]? = some shot.2.saveState := by
    rw [context, List.getElem?_map, there, Option.map_some,
      saved shot (List.mem_of_getElem? there)]
    rfl
  unfold SnapshotContext.restoreSnapshot
  rw [kept]
  rfl

theorem restored_iff (start : Machine κ) (events : List (Event (Operation κ))) {index : ℕ}
    {shot : SystemSnapshot × Machine κ}
    (there : (system.run ⟨start, []⟩ events).shots[index]? = some shot) :
    Restored (system.run ⟨start, []⟩ events) index shot.2 ↔
      Restorable shot.2 (system.run ⟨start, []⟩ events).now := by
  unfold Restored
  rw [restoreSnapshot_eq (system.saved_run start events) there]
  exact loaded_iff (sameSetup_run start events shot (List.mem_of_getElem? there))

/-! ## Operations that spare unsaved memory -/

/-- A byte that goes to memory the bus does not save is the one already there. -/
def Spares (m : Machine κ) (op : Operation κ) : Prop :=
  match m.bus, op with
  | .sparse b, .write8 addr val => ∀ pointer, b.writePlace addr = .host pointer → b.host pointer = val
  | .map mmu, .write8 addr val =>
    mmu.physBus.memory (mmu.writePlace (ICore.isHypervisor m.cpu) addr) = val
  | .map mmu, .physWrite8 addr val => mmu.physBus.memory (mmu.physBus.writePlace addr) = val
  | .map mmu, .hyperWrite8 offset val =>
    ∀ ram, mmu.hyperRam = some ram → mmu.physBus.host (ram + offset) = val
  | _, _ => True

inductive SameUnsaved : SystemBus → SystemBus → Prop where
  | flat {b b' : FlatMemoryBus} {sized sized'} : SameUnsaved (.flat b sized) (.flat b' sized')
  | sparse {b b' : SparseMemoryBus} (host : b'.host = b.host) :
    SameUnsaved (.sparse b) (.sparse b')
  | map {m m' : MapMmu} (memory : m'.physBus.memory = m.physBus.memory) :
    SameUnsaved (.map m) (.map m')

theorem SameUnsaved.refl (bus : SystemBus) : SameUnsaved bus bus := by
  cases bus with
  | flat b sized => exact .flat
  | sparse b => exact .sparse rfl
  | map m => exact .map rfl

theorem SameUnsaved.trans {bus bus' bus'' : SystemBus} (h : SameUnsaved bus bus')
    (h' : SameUnsaved bus' bus'') : SameUnsaved bus bus'' := by
  cases h with
  | flat =>
    cases h' with
    | flat => exact .flat
  | sparse host =>
    cases h' with
    | sparse host' => exact .sparse (host'.trans host)
  | map memory =>
    cases h' with
    | map memory' => exact .map (memory'.trans memory)

/-- The bytes saved in `t` and `u` can be counted in 32 bits, and those that differ lie at the
offsets that are their addresses: those of an array that differ in none of the bytes under an
overlay, or none at all where pages or a mapping are saved. -/
def Indexed (t u : Machine κ) : Prop :=
  t.bus.stateSize < 2 ^ 32 ∧
    match t.bus, u.bus with
    | .flat b _, .flat b' _ =>
      ∀ x, x ≤ b.addrMask → b.findOverlay x ≠ none → b'.data x = b.data x
    | .sparse b, .sparse b' =>
      b'.pages.keys = b.pages.keys ∧
        (∀ pageAddr ∈ b.pages.keys, b'.pages.page pageAddr = b.pages.page pageAddr) ∧
        ∀ addr, b'.peek8 addr = b.peek8 addr
    | .map m, .map m' => m'.mapState = m.mapState ∧ ∀ addr, u.peek8 addr = t.peek8 addr
    | _, _ => False

section Comparison
variable {h : Session κ} {indexA indexB : ℕ} {shotA shotB : SystemSnapshot × Machine κ}

end Comparison

theorem Indexed.symm {t u : Machine κ} (setup : SameSetup t.bus u.bus) (h : Indexed t u) :
    Indexed u t := by
  obtain ⟨cpu, bus⟩ := t
  obtain ⟨cpu', bus'⟩ := u
  cases setup with
  | @flat b b' sized sized' mask overlays =>
    obtain ⟨short, hidden⟩ := h
    have size : b'.size = b.size := by rw [FlatMemoryBus.size, FlatMemoryBus.size, mask]
    refine ⟨Nat.lt_of_le_of_lt (Nat.le_of_eq size) short, fun x inside covered => (hidden x (mask ▸ inside) ?_).symm⟩
    rwa [FlatMemoryBus.findOverlay, overlays] at covered
  | @sparse b b' setup =>
    obtain ⟨short, keys, pages, contents⟩ := h
    refine ⟨?_, keys.symm, fun pageAddr mem => (pages pageAddr (keys ▸ mem)).symm,
      fun addr => (contents addr).symm⟩
    change b'.stateSize < 2 ^ 32
    rw [SparseMemoryBus.stateSize, keys]
    exact short
  | map setup =>
    obtain ⟨short, mapping, contents⟩ := h
    exact ⟨short, mapping.symm, fun addr => (contents addr).symm⟩

/-! ## Sessions -/

end Sessions

/-- Sixteen bytes of RAM. -/
def flatMachine : Machine CPU6502State :=
  ⟨default, .flat (.new 4) ⟨4, by decide, rfl⟩⟩

/-- Of a 6502, which has no hypervisor. -/
instance : IBus SystemBus where
  read8 bus addr := (bus.peek8 false addr, bus)
  write8 bus addr val := bus.write8 false addr val
  peek8 bus addr := bus.peek8 false addr

instance : Closed SameSetup where
  refl := .refl
  trans _ _ _ := .trans
  read8 bus _ := .refl bus
  write8 bus addr val := sameSetup_perform (κ := CPU6502State) ⟨default, bus⟩ (.write8 addr val)

/-- After any number of steps of a 6502 a snapshot is restored exactly if the memory that its bus does
not save is as it was; on a flat bus always. -/
theorem steps_restored_iff {w : Wiring SystemBus} (unobserved : w.observer = none) (plain : w.pcHook = none)
    (unpulled : w.onVectorPull = none) (c : MOS6502 SystemBus) (n : ℕ) :
    let c' := (fun c => (step w c).2)^[n] c
    let h : Session CPU6502State :=
      ⟨⟨c'.state, c'.bus⟩, [(Machine.saveState ⟨c.state, c.bus⟩, ⟨c.state, c.bus⟩)]⟩
    (Restored h 0 ⟨c.state, c.bus⟩ ↔ Restorable ⟨c.state, c.bus⟩ h.now) ∧
      ((∃ b sized, c.bus = .flat b sized) → Restored h 0 ⟨c.state, c.bus⟩) := by
  intro c' h
  have pull : ∀ f ∈ w.onVectorPull, ∀ x, SameSetup x (f x) := by
    intro f mem
    rw [unpulled] at mem
    cases mem
  have one (c : MOS6502 SystemBus) : SameSetup c.bus (step w c).2.bus := by
    cases asleep : c.state.asleep with
    | true =>
      rw [step_asleep w asleep]
      exact .refl c.bus
    | false => exact (step_nmiLine unobserved plain pull asleep).2.2
  have many (n : ℕ) : SameSetup c.bus ((fun c => (step w c).2)^[n] c).bus := by
    induction n with
    | zero => exact .refl c.bus
    | succ n ih =>
      rw [Function.iterate_succ_apply']
      exact ih.trans (one _)
  have saved : system.Saved h := fun shot mem => by
    cases List.mem_singleton.mp mem
    rfl
  have restores : Restored h 0 ⟨c.state, c.bus⟩ ↔ Restorable ⟨c.state, c.bus⟩ h.now := by
    unfold Restored
    rw [restoreSnapshot_eq saved rfl]
    exact loaded_iff (many n)
  refine ⟨restores, ?_⟩
  rintro ⟨b, sized, flat⟩
  have always (bus : SystemBus) (same : SameSetup (.flat b sized) bus) :
      Restorable ⟨c.state, .flat b sized⟩ ⟨c'.state, bus⟩ := by
    cases same
    trivial
  exact restores.mpr (flat ▸ always c'.bus (flat ▸ many n))

theorem steps_restored_iff_flat :
    let c : MOS6502 SystemBus := ⟨default, flatMachine.bus, false, 0, 0⟩
    let c' := (fun c => (step ⟨none, none, none⟩ c).2)^[3] c
    Restored ⟨⟨c'.state, c'.bus⟩, [(flatMachine.saveState, flatMachine)]⟩ 0 flatMachine :=
  (steps_restored_iff rfl rfl rfl ⟨default, flatMachine.bus, false, 0, 0⟩ 3).2 ⟨_, _, rfl⟩

end Mmemu.Guarantees.SnapshotRestore
