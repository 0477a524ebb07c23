import Mmemu.Library.MemoryWrites
import Mmemu.Library.WordBytes
import Mmemu.Source.Cpu45gs02
import Mmemu.Source.Cpu45gs02Step

/-!
# MEGA65 virtualisation registers

Source: src/plugins/devices/mega65_hypervisor/main/hypervisor_regs.cpp (ioWrite). In user mode
a write to $D640-$D67F traps into the hypervisor; there the same addresses hold the saved
context, and $D67F leaves it. Who services a trap before HYPPO runs is a parameter.
-/
namespace Mmemu.Source.HypervisorRegs
open Mmemu.Source.MemoryBus Mmemu.Source.Cpu45gs02

/-- A byte of the saved context. The MAP registers are encoded as the MAP instruction's A, X, Y
and Z are. -/
def writeReg (h : HypervisorState) (off val : BitVec 8) : HypervisorState :=
  match off.toNat with
  | 0x00 => { h with regA := val }
  | 0x01 => { h with regX := val }
  | 0x02 => { h with regY := val }
  | 0x03 => { h with regZ := val }
  | 0x04 => { h with regB := val }
  | 0x05 => { h with spl := val }
  | 0x06 => { h with sph := val }
  | 0x07 => { h with pflags := val }
  | 0x08 => { h with pc := h.pc &&& 0xFF00 ||| val.setWidth 16 }
  | 0x09 => { h with pc := h.pc &&& 0x00FF ||| val.setWidth 16 <<< 8 }
  | 0x0A =>
    { h with
      mapEnables := h.mapEnables &&& 0xF0 ||| val >>> 4
      mapOffsetLow := h.mapOffsetLow &&& 0x0FF00 ||| (val &&& 0x0F).setWidth 32 <<< 16 }
  | 0x0B => { h with mapOffsetLow := h.mapOffsetLow &&& 0xF0000 ||| val.setWidth 32 <<< 8 }
  | 0x0C =>
    { h with
      mapEnables := h.mapEnables &&& 0x0F ||| val &&& 0xF0
      mapOffsetHigh := h.mapOffsetHigh &&& 0x0FF00 ||| (val &&& 0x0F).setWidth 32 <<< 16 }
  | 0x0D => { h with mapOffsetHigh := h.mapOffsetHigh &&& 0xF0000 ||| val.setWidth 32 <<< 8 }
  | 0x0E => { h with megabyteLow := val.setWidth 32 <<< 20 }
  | 0x0F => { h with megabyteHigh := val.setWidth 32 <<< 20 }
  | 0x10 => { h with port00 := val }
  | 0x11 => { h with port01 := val }
  | 0x12 => { h with vicMode := val }
  | 0x13 => { h with dmaSrcMB := val }
  | 0x14 => { h with dmaDstMB := val }
  | 0x15 => { h with dmaListAddr := h.dmaListAddr &&& 0x0FFFFF00 ||| val.setWidth 32 }
  | 0x16 => { h with dmaListAddr := h.dmaListAddr &&& 0x0FFF00FF ||| val.setWidth 32 <<< 8 }
  | 0x17 => { h with dmaListAddr := h.dmaListAddr &&& 0x0F00FFFF ||| val.setWidth 32 <<< 16 }
  | 0x18 =>
    { h with
      dmaListAddr := h.dmaListAddr &&& 0x00FFFFFF ||| (val &&& 0x0F).setWidth 32 <<< 24 }
  | _ => h

section Device
variable {ω : Type} [MachineBus ω]

/-- The machine's call intercepts: trap number and function to whether it was serviced. -/
abbrev CallInterceptFn (ω : Type) := BitVec 8 → BitVec 8 → Exec ω Bool

/-- The addresses the device answers to. -/
def Selects (addr : BitVec 32) : Prop := addr &&& ~~~0x3F = 0xD640

instance (addr : BitVec 32) : Decidable (Selects addr) := inferInstanceAs (Decidable (_ = _))

/-- A trap, which only a NOP or a CLV at PC lets happen. -/
def trap (hooks : HypervisorHooks ω) (callIntercept : Option (CallInterceptFn ω)) (off : BitVec 8) :
    Exec ω Unit := do
  let c ← get
  let nextOp := IBus.peek8 c.bus (c.state.pc.setWidth 32)
  if nextOp ≠ 0xEA ∧ nextOp ≠ 0xB8 then return ()
  else
    let function := if off = 0 then c.state.a &&& 0x7E else c.state.a
    enterHypervisor hooks (0x8000 + off.setWidth 16 * 4)
    match callIntercept with
    | some intercept =>
      let serviced ← intercept off function
      if serviced then exitHypervisor hooks else return ()
    | none => return ()

/-- The device says whether the write was its own. -/
def ioWrite (hooks : HypervisorHooks ω) (callIntercept : Option (CallInterceptFn ω))
    (addr : BitVec 32) (val : BitVec 8) : Exec ω Bool := do
  if Selects addr then
    let off : BitVec 8 := (addr &&& 0x3F).setWidth 8
    if !(← get).state.hypervisor then
      trap hooks callIntercept off
      return true
    else
      modify fun c => { c with hyperState := writeReg c.hyperState off val }
      if off = 0x3F then exitHypervisor hooks else pure ()
      return true
  else return false

/-- What happens to a core whose bus has the device: what a machine does with it, and the
writes of its instructions that the device sees. -/
inductive MachineEvent where
  | core (e : Cpu45gs02.Event)
  | ioWrite (addr : BitVec 32) (val : BitVec 8)
  deriving DecidableEq, Repr

def apply (w : Wiring ω) (callIntercept : Option (CallInterceptFn ω)) (c : MOS45GS02 ω) :
    MachineEvent → MOS45GS02 ω
  | .core e => Cpu45gs02.apply w c e
  | .ioWrite addr val => (ioWrite w.hooks callIntercept addr val c).2

end Device

/-- Instructions and the lines around them, none of which traps, leaves the hypervisor or
writes a virtualisation register. -/
def MachineEvent.Quiet : MachineEvent → Prop
  | .core .step | .core .triggerIrq | .core .triggerNmi => True
  | .core (.setIrqLine _) | .core (.setNmiLine _) | .core (.setHaltLine _) => True
  | .core .reset | .core (.enterHypervisor _) | .core .exitHypervisor => False
  | .ioWrite addr _ => ¬ Selects addr

end Mmemu.Source.HypervisorRegs

/-!
# HDOS handler

`hdos_handler.cpp`: the DOS calls of the hypervisor, answered from a folder of the host. The
host's files, what the caller's memory holds and the registers are given with each call; what a
call writes and which paths it opens is its outcome.
-/
namespace Mmemu.Source.Hdos
open Mmemu.Library.LittleEndian Mmemu.Library.Splice Mmemu.Source.Cpu45gs02

/-- Bytes of a path or a name. -/
abbrev Path := List Byte

def slash : Byte := 0x2F
def dot : Byte := 0x2E

def tolower (c : Byte) : Byte := if 0x41 ≤ c ∧ c ≤ 0x5A then c + 0x20 else c

def MAX_DESCRIPTORS : ℕ := 4
def HDOSERR_FILE_NOT_FOUND : Byte := 0x05
def HDOSERR_INVALID_DESC : Byte := 0x07
def HDOSERR_TOO_MANY_OPEN : Byte := 0x08
def HDOSERR_READ_ERROR : Byte := 0x09
def HDOSERR_NO_SUCH_DISK : Byte := 0x80
def HDOSERR_CANNOT_OPEN_DIR : Byte := 0x0C

/-- An open file; a folder opens too, and cannot be read. -/
structure Fd where
  data : Option (List Byte)
  pos : ℕ

/-- `readdir`: a name, and whether it is a folder. -/
abbrev DirEntry := Path × Bool

/-- The host's file system during a call. -/
structure Host where
  exists_ : Path → Bool
  is_directory : Path → Bool
  directory_iterator : Path → List Path
  /-- A folder lists names, without "." and "..". -/
  names : ∀ folder, ∀ name ∈ directory_iterator folder, slash ∉ name ∧ name ≠ [dot, dot]
  open_ : Path → Option (Option (List Byte))
  opendir : Path → Option (List DirEntry)
  stat : Path → Option ℕ

/-- A host with one file. -/
def Host.single (file : Path) (data : List Byte) : Host where
  exists_ := (· == file)
  is_directory _ := false
  directory_iterator _ := []
  names := nofun
  open_ path := if path = file then some (some data) else none
  opendir _ := none
  stat _ := none

inductive Descriptor where
  | closed
  | file (fd : Fd) (basePath : Path)
  | dir (dirp : List DirEntry) (basePath : Path)

def Descriptor.isClosed : Descriptor → Bool
  | .closed => true
  | _ => false

structure HdosHandler where
  m_rootDir : Path
  m_cwd : Path
  m_setnameFn : Path
  m_overrideName : Path
  m_fileFound : Path
  m_physBus : Bool
  m_currentDesc : Option (Fin MAX_DESCRIPTORS)
  m_transferArea : ℕ
  m_lastError : Byte
  m_descriptors : Fin MAX_DESCRIPTORS → Descriptor

/-- What a call leaves: the handler, the registers, the writes to physical and to the caller's
memory and the paths that were opened, in order. -/
structure Outcome where
  handler : HdosHandler
  hyper : HypervisorState
  phys : List (ℕ × Byte)
  user : List (ℕ × Byte)
  opened : List Path

/-- With these paths opened on the way. -/
def Outcome.opening (o : Outcome) (paths : List Path) : Outcome := { o with opened := paths ++ o.opened }

namespace HdosHandler

/-- A handler for a folder of the host. -/
def new (root overrideName : Path) : HdosHandler :=
  let m_rootDir := if root ≠ [] ∧ root.getLast? ≠ some slash then root ++ [slash] else root
  { m_rootDir
    m_cwd := m_rootDir
    m_setnameFn := []
    m_overrideName := overrideName
    m_fileFound := []
    m_physBus := false
    m_currentDesc := none
    m_transferArea := 0
    m_lastError := 0
    m_descriptors := fun _ => .closed }

def requestedName (s : HdosHandler) : Path :=
  if s.m_overrideName = [] then s.m_setnameFn else s.m_overrideName

def setResult (h : HypervisorState) (a : Byte) (carry : Bool) : HypervisorState :=
  { h with regA := a, pflags := if carry then h.pflags ||| 0x01 else h.pflags &&& ~~~0x01 }

/-- A call that only answers. -/
def reply (s : HdosHandler) (h : HypervisorState) (a : Byte) (carry : Bool) : Outcome :=
  ⟨s, setResult h a carry, [], [], []⟩

def success (s : HdosHandler) (h : HypervisorState) (a : Byte) : Outcome :=
  { s with m_lastError := 0 }.reply h a true

def failure (s : HdosHandler) (h : HypervisorState) (error : Byte) : Outcome :=
  { s with m_lastError := error }.reply h error false

def setDescriptor (s : HdosHandler) (idx : Fin MAX_DESCRIPTORS) (d : Descriptor) : HdosHandler :=
  { s with m_descriptors := Function.update s.m_descriptors idx d }

def allocateDescriptor (s : HdosHandler) : Option (Fin MAX_DESCRIPTORS) :=
  (List.finRange MAX_DESCRIPTORS).find? fun i => (s.m_descriptors i).isClosed

/-- A descriptor that the X register names. -/
def descriptorOf (x : Byte) : Option (Fin MAX_DESCRIPTORS) :=
  if h : x.toNat < MAX_DESCRIPTORS then some ⟨x.toNat, h⟩ else none

/-! ## Names -/

/-- Up to 63 bytes in lower case, to a zero. -/
def captureSetname (s : HdosHandler) (h : HypervisorState) (memory : ℕ → Byte) : HdosHandler :=
  let page := h.regY
  if 0x80 ≤ page ∨ page = 0x7F then { s with m_setnameFn := [] }
  else
    let bytes := (List.range 63).map fun i => memory (page.toNat * 256 + i)
    { s with m_setnameFn := (bytes.takeWhile (· != 0)).map tolower }

/-- The file a name means in the current folder, in any case, and what is opened to find it. -/
def fullPath (s : HdosHandler) (host : Host) : Option Path × List Path :=
  let fullPath := s.m_cwd ++ s.requestedName
  if host.exists_ fullPath then (some fullPath, [])
  else
    (((host.directory_iterator s.m_cwd).find? fun name => name.map tolower == s.requestedName).map
      (s.m_cwd ++ ·), [s.m_cwd])

/-! ## Calls -/

def virtSelectDrive (s : HdosHandler) (h : HypervisorState) : Outcome :=
  if h.regX ≠ 0 then s.failure h HDOSERR_NO_SUCH_DISK else s.reply h 0 true

def virtFindFile (s : HdosHandler) (host : Host) (h : HypervisorState) : Outcome :=
  if s.requestedName = [] then s.failure h HDOSERR_FILE_NOT_FOUND
  else
    match s.fullPath host with
    | (none, opened) => (s.failure h HDOSERR_FILE_NOT_FOUND).opening opened
    | (some path, opened) => (success { s with m_fileFound := path } h 0).opening opened

def virtOpenFile (s : HdosHandler) (host : Host) (h : HypervisorState) : Outcome :=
  if s.m_fileFound = [] then s.failure h HDOSERR_FILE_NOT_FOUND
  else
    match s.allocateDescriptor with
    | none => s.failure h HDOSERR_TOO_MANY_OPEN
    | some idx =>
      match host.open_ s.m_fileFound with
      | none => (s.failure h HDOSERR_FILE_NOT_FOUND).opening [s.m_fileFound]
      | some data =>
        let s' := { s.setDescriptor idx (.file ⟨data, 0⟩ s.m_cwd) with m_currentDesc := some idx }
        (s'.success h (BitVec.ofNat 8 idx)).opening [s.m_fileFound]

def virtOpenDir (s : HdosHandler) (host : Host) (h : HypervisorState) : Outcome :=
  match s.allocateDescriptor with
  | none => s.failure h HDOSERR_TOO_MANY_OPEN
  | some idx =>
    match host.opendir s.m_cwd with
    | none => (s.failure h HDOSERR_CANNOT_OPEN_DIR).opening [s.m_cwd]
    | some dirp =>
      ((s.setDescriptor idx (.dir dirp s.m_cwd)).success h (BitVec.ofNat 8 idx)).opening [s.m_cwd]

/-- Bytes written one after the other. -/
def writes (at_ : ℕ) (bytes : List Byte) : List (ℕ × Byte) := bytes.mapIdx fun i b => (at_ + i, b)

/-- Up to 512 bytes into the sector buffer. The count is returned in X. -/
def virtReadFile (s : HdosHandler) (h : HypervisorState) : Outcome :=
  match s.m_currentDesc.map fun idx => (idx, s.m_descriptors idx) with
  | some (idx, .file fd basePath) =>
    match fd.data with
    | none => s.failure h HDOSERR_READ_ERROR
    | some data =>
      let buffer := slice data fd.pos 512
      let s' := s.setDescriptor idx (.file { fd with pos := fd.pos + buffer.length } basePath)
      { handler := { s' with m_lastError := 0 }
        hyper := { h with regA := 0, regX := BitVec.ofNat 8 buffer.length, pflags := h.pflags ||| 0x01 }
        phys := if s.m_physBus then writes 0xFFD6E00 buffer else []
        user := []
        opened := [] }
  | _ => s.failure h HDOSERR_INVALID_DESC

/-- Name, size and kind at the transfer area. -/
def dirEntry (name : Path) (fsize : ℕ) (folder : Bool) : List Byte :=
  (List.range 64).map (fun i => name.getD i 0) ++ encode 4 fsize ++ [if folder then 0x10 else 0x00]

def virtReadDir (s : HdosHandler) (host : Host) (h : HypervisorState) : Outcome :=
  match (descriptorOf h.regX).map fun idx => (idx, s.m_descriptors idx) with
  | some (idx, .dir dirp basePath) =>
    match dirp.dropWhile fun e => e.1 == [dot] || e.1 == [dot, dot] with
    | [] => (s.setDescriptor idx (.dir [] basePath)).reply h 0 false
    | (name, folder) :: rest =>
      let o := (s.setDescriptor idx (.dir rest basePath)).success h 0
      let fsize := (host.stat (basePath ++ name)).getD 0
      { o with
        user := if s.m_transferArea = 0 then []
          else writes s.m_transferArea (dirEntry name fsize folder) }
  | _ => s.failure h HDOSERR_INVALID_DESC

def virtCloseFileOrDir (s : HdosHandler) (h : HypervisorState) : Outcome :=
  match (descriptorOf h.regX).map fun idx => (idx, s.m_descriptors idx) with
  | none | some (_, .closed) => s.failure h HDOSERR_INVALID_DESC
  | some (idx, _) =>
    success { s.setDescriptor idx .closed with
      m_currentDesc := if s.m_currentDesc = some idx then none else s.m_currentDesc } h 0

def virtCloseAll (s : HdosHandler) (h : HypervisorState) : Outcome :=
  success { s with m_descriptors := fun _ => .closed, m_currentDesc := none } h 0

/-- The file goes to the address in X and Z, around the end of its 16 MB. -/
def virtLoadFile (s : HdosHandler) (host : Host) (h : HypervisorState) (addrBase : ℕ) : Outcome :=
  if s.requestedName = [] then s.failure h HDOSERR_FILE_NOT_FOUND
  else
    match s.fullPath host with
    | (none, opened) => (s.failure h HDOSERR_FILE_NOT_FOUND).opening opened
    | (some path, opened) =>
      let addr := addrBase + h.regX.toNat + h.regZ.toNat * 65536
      match host.open_ path with
      | none => (s.failure h HDOSERR_FILE_NOT_FOUND).opening (opened ++ [path])
      | some data =>
        let o := (s.success h 0).opening (opened ++ [path])
        { o with
          phys := if s.m_physBus then
              (data.getD []).mapIdx fun i b => (addrBase + (addr + i) % 2 ^ 24, b)
            else [] }

def virtCd (s : HdosHandler) (host : Host) (h : HypervisorState) : Outcome :=
  if s.requestedName = [] then s.failure h HDOSERR_FILE_NOT_FOUND
  else
    let target := s.m_cwd ++ s.requestedName
    let target := if target.getLast? ≠ some slash then target ++ [slash] else target
    if host.is_directory target then success { s with m_cwd := target } h 0
    else s.failure h HDOSERR_FILE_NOT_FOUND

def virtCdRoot (s : HdosHandler) (h : HypervisorState) : Outcome := success { s with m_cwd := s.m_rootDir } h 0

/-- A dummy size. -/
def getDiskSize (s : HdosHandler) (h : HypervisorState) : Outcome :=
  ⟨s, { h with regA := 0x00, regX := 0x0C, regY := 0x80, regZ := 0x00, pflags := h.pflags ||| 0x01 },
    [], [], []⟩

/-- Whether the call was served, and with what outcome. -/
def handleTrap (s : HdosHandler) (host : Host) (func : Byte) (h : HypervisorState) : Option Outcome :=
  match func.toNat / 2 with
  | 0x01 | 0x02 => some (s.reply h 0 true)
  | 0x03 => some (s.virtSelectDrive h)
  | 0x04 => some (s.getDiskSize h)
  | 0x06 => some (s.virtCd host h)
  | 0x09 => some (s.virtOpenDir host h)
  | 0x0A => some (s.virtReadDir host h)
  | 0x0B | 0x10 => some (s.virtCloseFileOrDir h)
  | 0x0C => some (s.virtOpenFile host h)
  | 0x0D => some (s.virtReadFile h)
  | 0x11 => some (s.virtCloseAll h)
  | 0x1A => some (s.virtFindFile host h)
  | 0x1B => some (s.virtLoadFile host h 0)
  | 0x1C => some (s.reply h s.m_lastError true)
  | 0x1E => some (s.virtCdRoot h)
  | 0x1F => some (s.virtLoadFile host h 0x8000000)
  | _ => none

/-- A call: its function, the registers and memory of the caller, the host by then, and whether
the machine has a bus. -/
structure Call where
  func : Byte
  hyper : HypervisorState
  memory : ℕ → Byte
  host : Host
  bus : Bool

/-- Set name and set transfer area are noted and left to the hypervisor. -/
def onCall (s : HdosHandler) (c : Call) : Bool × Outcome :=
  let s := { s with m_physBus := s.m_physBus || c.bus }
  if c.func = 0x2E then (false, ⟨s.captureSetname c.hyper c.memory, c.hyper, [], [], []⟩)
  else if c.func = 0x3A then
    (false, ⟨{ s with m_transferArea := c.hyper.regY.toNat * 256 }, c.hyper, [], [], []⟩)
  else
    match s.handleTrap c.host c.func c.hyper with
    | some o => (true, o)
    | none => (false, ⟨s, c.hyper, [], [], []⟩)

end HdosHandler

end Mmemu.Source.Hdos
