import Mmemu.Library.WordBytes
import Mmemu.Source.C64Pla
import Mmemu.Source.Cpu6502
import Mmemu.Source.MapMmu

/-!
# Snapshots of a machine

Source: `saveSnapshot`, `restoreSnapshot`, `deleteSnapshot` and `diffSnapshots` in
src/libdebug/main/debug_context.cpp, and what the CPU and the memory do in between. No
cartridge is attached or ejected, and no overlay or region added, while the machine runs.
Labels only appear in listings and are left out.
-/
namespace Mmemu.Source.Snapshots
open Mmemu.Library.LittleEndian
open Mmemu.Source.MemoryBus
open Mmemu.Source.Cpu6502

/-- What the debugger sees of a core: its state is copied out and in byte by byte. -/
class ICore (κ : Type) where
  saveState : κ → List Byte
  loadState : List Byte → κ
  isHypervisor : κ → Bool
  loadState_saveState : ∀ k, loadState (saveState k) = k

/-- The memory of a `CPU6502State`, with the bytes that align `cycles` and the end. -/
def layout (s : CPU6502State) : List (ℕ × ℕ) :=
  [(1, s.a.toNat), (1, s.x.toNat), (1, s.y.toNat), (1, s.sp.toNat), (2, s.pc.toNat),
    (1, s.p.toNat), (1, 0), (8, s.cycles.toNat), (1, s.irqLine.toNat), (1, s.nmiLine.toNat),
    (1, s.nmiPrev.toNat), (1, s.haltLine.toNat), (1, s.waiting.toNat), (1, s.stopped.toNat), (2, 0)]

def widths : List ℕ := [1, 1, 1, 1, 2, 1, 1, 8, 1, 1, 1, 1, 1, 1, 2]

def ofBytes (buf : List Byte) : CPU6502State :=
  let values := fields widths buf
  { a := BitVec.ofNat 8 (values.getD 0 0)
    x := BitVec.ofNat 8 (values.getD 1 0)
    y := BitVec.ofNat 8 (values.getD 2 0)
    sp := BitVec.ofNat 8 (values.getD 3 0)
    pc := BitVec.ofNat 16 (values.getD 4 0)
    p := BitVec.ofNat 8 (values.getD 5 0)
    cycles := BitVec.ofNat 64 (values.getD 7 0)
    irqLine := values.getD 8 0 != 0
    nmiLine := values.getD 9 0 != 0
    nmiPrev := values.getD 10 0 != 0
    haltLine := values.getD 11 0 != 0
    waiting := values.getD 12 0 != 0
    stopped := values.getD 13 0 != 0 }

theorem ofBytes_record (s : CPU6502State) : ofBytes (record (layout s)) = s := by
  have laid : fields widths (record (layout s)) = (layout s).map fun f => f.2 % 256 ^ f.1 := by
    have := fields_record (layout s) []
    rwa [List.append_nil] at this
  have line (on : Bool) : (on.toNat % 256 ^ 1 != 0) = on := by
    cases on <;> rfl
  obtain ⟨a, x, y, sp, pc, p, cycles, irqLine, nmiLine, nmiPrev, haltLine, waiting, stopped⟩ := s
  unfold ofBytes
  simp only [laid, CPU6502State.mk.injEq]
  exact ⟨ofNat_mod_pow 1 a (by omega), ofNat_mod_pow 1 x (by omega), ofNat_mod_pow 1 y (by omega),
    ofNat_mod_pow 1 sp (by omega), ofNat_mod_pow 2 pc (by omega), ofNat_mod_pow 1 p (by omega),
    ofNat_mod_pow 8 cycles (by omega), line irqLine, line nmiLine, line nmiPrev, line haltLine,
    line waiting, line stopped⟩

instance : ICore CPU6502State where
  saveState s := record (layout s)
  loadState := ofBytes
  isHypervisor _ := false
  loadState_saveState := ofBytes_record

inductive SystemBus where
  | flat (b : FlatMemoryBus) (sized : b.Sized)
  | sparse (b : SparseMemoryBus)
  | map (m : MapMmu)

namespace SystemBus

/-- `config().addrMask` -/
def addrMask : SystemBus → BitVec 32
  | flat b _ => b.addrMask
  | sparse b => b.addrMask
  | map _ => 0xFFFF

/-- The byte at an address; `active` is what the callback of the hypervisor overlay answers. -/
def peek8 (active : Bool) : SystemBus → BitVec 32 → BitVec 8
  | flat b _, addr => b.peek8 addr
  | sparse b, addr => b.peek8 addr
  | map m, addr => m.peek8 active addr

def write8 (active : Bool) (addr : BitVec 32) (val : BitVec 8) : SystemBus → SystemBus
  | flat b sized =>
    flat (b.write8 addr val) (by simpa [FlatMemoryBus.Sized, FlatMemoryBus.size] using sized)
  | sparse b => sparse (b.write8 addr val)
  | map m => map (m.write8 active addr val)

def reset : SystemBus → SystemBus
  | flat b sized => flat b.reset sized
  | sparse b => sparse b.reset
  | map m => map m.reset

def stateSize : SystemBus → ℕ
  | flat b _ => b.size
  | sparse b => b.stateSize
  | map m => m.stateSize

def saveState : SystemBus → List Byte
  | flat b _ => b.saveState
  | sparse b => b.saveState
  | map m => m.saveState

def loadState (buf : List Byte) : SystemBus → SystemBus
  | flat b sized => flat (b.loadState buf) sized
  | sparse b => sparse (b.loadState buf)
  | map m => map (m.loadState buf)

/-- Only the MAP controller has a mapping to set; other buses are not asked. -/
def setMapState (state : MapState) : SystemBus → SystemBus
  | map m => map (m.setMapState state)
  | bus => bus

/-- A write through `getPhysBus()`. -/
def physWrite8 (addr : BitVec 32) (val : BitVec 8) : SystemBus → SystemBus
  | map m => map { m with physBus := m.physBus.write8 addr val }
  | bus => bus

/-- A byte of the hypervisor RAM, which the CPU writes to without the bus. -/
def hyperWrite8 (offset : ℕ) (val : BitVec 8) : SystemBus → SystemBus
  | map m => map (m.hyperWrite8 offset val)
  | bus => bus

end SystemBus

structure Machine (κ : Type) where
  cpu : κ
  bus : SystemBus

/-- What the CPU and its memory do, one access at a time: an instruction is a series of
register changes, chosen from what its reads gave, and of the writes below. The reset of a
45GS02 fills the hypervisor RAM byte by byte. -/
inductive Operation (κ : Type) where
  | registers (f : κ → κ)
  | write8 (addr : BitVec 32) (val : BitVec 8)
  | physWrite8 (addr : BitVec 32) (val : BitVec 8)
  | hyperWrite8 (offset : ℕ) (val : BitVec 8)
  | setMapState (state : MapState)
  | reset

structure SystemSnapshot where
  cpuState : List Byte
  busState : List Byte

section Context
variable {κ : Type} [ICore κ]

namespace Machine

/-- What a read of the bus gives. -/
def peek8 (m : Machine κ) (addr : BitVec 32) : BitVec 8 :=
  m.bus.peek8 (ICore.isHypervisor m.cpu) addr

def perform (m : Machine κ) : Operation κ → Machine κ
  | .registers f => { m with cpu := f m.cpu }
  | .write8 addr val => { m with bus := m.bus.write8 (ICore.isHypervisor m.cpu) addr val }
  | .physWrite8 addr val => { m with bus := m.bus.physWrite8 addr val }
  | .hyperWrite8 offset val => { m with bus := m.bus.hyperWrite8 offset val }
  | .setMapState state => { m with bus := m.bus.setMapState state }
  | .reset => { m with bus := m.bus.reset }

def saveState (m : Machine κ) : SystemSnapshot where
  cpuState := ICore.saveState m.cpu
  busState := m.bus.saveState

def loadState (m : Machine κ) (snap : SystemSnapshot) : Machine κ where
  cpu := ICore.loadState snap.cpuState
  bus := m.bus.loadState snap.busState

end Machine

structure SnapshotContext (κ : Type) where
  machine : Machine κ
  snapshots : List SystemSnapshot

namespace SnapshotContext

def saveSnapshot (c : SnapshotContext κ) : ℕ × SnapshotContext κ :=
  (c.snapshots.length, { c with snapshots := c.snapshots ++ [c.machine.saveState] })

/-- A negative index is refused like one past the end. -/
def restoreSnapshot (c : SnapshotContext κ) (index : ℕ) : Bool × SnapshotContext κ :=
  match c.snapshots[index]? with
  | some snap => (true, { c with machine := c.machine.loadState snap })
  | none => (false, c)

def deleteSnapshot (c : SnapshotContext κ) (index : ℕ) : Bool × SnapshotContext κ :=
  if index < c.snapshots.length then
    (true, { c with snapshots := c.snapshots.eraseIdx index })
  else (false, c)

end SnapshotContext

end Context

end Mmemu.Source.Snapshots

/-!
# VICE snapshots

Source: src/cli/main/vice_snapshot.cpp, for a Commodore 64: a 6510 on the system bus. A file is
its bytes, and the file opens. The modules of the chips are only logged.
-/
namespace Mmemu.Source.ViceSnapshot
open Mmemu.Source.MemoryBus
open Mmemu.Source.C64Pla (C64Bus C64Devices)
open Mmemu.Source.Cpu6502 (CPU6502State regRead regWrite)
open Mmemu.Library.LittleEndian

def ascii (text : String) : List Byte := text.toList.map fun c => BitVec.ofNat 8 c.toNat

/-- A `char` array as a string. -/
def cString (bytes : List Byte) : List Byte := bytes.takeWhile (· ≠ 0)

/-- `strncpy` of at most 15 bytes into 16 zeroed ones. -/
def field (text : List Byte) : List Byte :=
  let copied := (cString text).take 15
  copied ++ List.replicate (16 - copied.length) 0

structure C64 (δ : Type) where
  cpu : CPU6502State
  bus : C64Bus δ

/-! ## Loading -/

/-- The registers of a CPU module. -/
def setRegisters (data : List Byte) (cpu : CPU6502State) : CPU6502State :=
  let at_ (i : ℕ) : BitVec 32 := (data.getD i 0).setWidth 32
  let cpu := { cpu with pc := BitVec.ofNat 16 (decode (data.take 2)) }
  let cpu := regWrite cpu .A (at_ 2)
  let cpu := regWrite cpu .X (at_ 3)
  let cpu := regWrite cpu .Y (at_ 4)
  let cpu := regWrite cpu .P (at_ 6)
  regWrite cpu .SP (at_ 5)

section Snapshot
variable {ω : Type} [IBus ω] {δ : Type} [C64Devices δ]

def loadCpuModule (data : List Byte) (cpu : CPU6502State) : Except String CPU6502State :=
  if data.length < 7 then .error "CPU module too small" else .ok (setRegisters data cpu)

/-- As many bytes as the header says, if the module has them. -/
def loadRamModule (data : List Byte) (bus : ω) : Except String ω :=
  if data.length < 4 then .error "RAM module header incomplete"
  else
    let ramSize := decode (data.take 4)
    .ok (((data.drop 4).take ramSize).zipIdx.foldl
      (fun bus byte => IBus.write8 bus (BitVec.ofNat 32 byte.2) byte.1) bus)

/-- Apply a module; the error, if there is one, leaves the machine as it is. -/
def loadModule (name data : List Byte) (m : C64 δ) : Except String (C64 δ) :=
  if name = ascii "CPU" then do return { m with cpu := ← loadCpuModule data m.cpu }
  else if name = ascii "RAM" then do return { m with bus := ← loadRamModule data m.bus }
  else .ok m

/-- The modules up to the end of the file or an incomplete header. -/
def loadModules (file : List Byte) (m : C64 δ) : Option String × C64 δ :=
  if file.length < 24 then (none, m)
  else
    let name := cString (file.take 16)
    let length := decode ((file.drop 20).take 4)
    if (file.drop 24).length < length then (some "Module data exceeds file size", m)
    else
      match loadModule name ((file.drop 24).take length) m with
      | .error e => (some e, m)
      | .ok m => loadModules ((file.drop 24).drop length) m
termination_by file.length
decreasing_by
  simp only [List.length_drop]
  omega

/-- Load a snapshot file: the error, if any, and the machine afterwards. -/
def load (file : List Byte) (m : C64 δ) : Option String × C64 δ :=
  if file.length < 40 then (some "File too small for VICE snapshot header", m)
  else if cString (file.take 16) ≠ ascii "VICE Snapshot" then
    (some "Invalid VICE snapshot magic", m)
  else loadModules (file.drop 40) m

/-! ## Saving -/

def createCpuModule (cpu : CPU6502State) : List Byte :=
  encode 2 cpu.pc.toNat ++
    [(regRead cpu .A).setWidth 8, (regRead cpu .X).setWidth 8, (regRead cpu .Y).setWidth 8,
      (regRead cpu .SP).setWidth 8, (regRead cpu .P).setWidth 8]

/-- The whole address space, as a debugger sees it. -/
def createRamModule (bus : ω) : List Byte :=
  encode 4 65536 ++ (List.range 65536).map fun i => IBus.peek8 bus (BitVec.ofNat 32 i)

def fileHeader (machineType : List Byte) : List Byte :=
  field (ascii "VICE Snapshot") ++ encode 4 1 ++ field machineType ++ List.replicate 4 0

def module_ (name data : List Byte) : List Byte :=
  field name ++ encode 4 1 ++ encode 4 data.length ++ data

def save (machineType : List Byte) (m : C64 δ) : List Byte :=
  fileHeader machineType ++ module_ (ascii "CPU") (createCpuModule m.cpu) ++
    module_ (ascii "RAM") (createRamModule m.bus)

end Snapshot
end Mmemu.Source.ViceSnapshot
