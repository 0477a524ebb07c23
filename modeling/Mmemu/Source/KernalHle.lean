import Mmemu.Source.Cpu45gs02

/-!
# KERNAL LOAD and SAVE from a host folder

Source: src/plugins/cbm-hle/main/kernal_hle.cpp and kernal_hle.h. The host's files are a table by path.
What the host does with a file that is written, and which units the machine's drives answer, are
arguments.
-/
namespace Mmemu.Source.KernalHle
open Mmemu.Source.MemoryBus
open Mmemu.Source.Cpu6502 (CPU6502State)
open Mmemu.Source.Cpu45gs02 (CPU45GS02State)

abbrev Byte := BitVec 8

/-! ## The CPU -/

/-- The CPUs whose machines have such an intercept. -/
inductive Cpu where
  | mos6502 (s : CPU6502State)
  | mos45gs02 (s : CPU45GS02State)

inductive Reg where
  | A | X | Y | P | SP
  deriving DecidableEq, Repr

namespace Cpu

/-- `regReadByName` -/
def regRead : Cpu → Reg → BitVec 32
  | mos6502 s, .A => s.a.setWidth 32
  | mos6502 s, .X => s.x.setWidth 32
  | mos6502 s, .Y => s.y.setWidth 32
  | mos6502 s, .P => s.p.setWidth 32
  | mos6502 s, .SP => s.sp.setWidth 32
  | mos45gs02 s, .A => s.a.setWidth 32
  | mos45gs02 s, .X => s.x.setWidth 32
  | mos45gs02 s, .Y => s.y.setWidth 32
  | mos45gs02 s, .P => s.p.setWidth 32
  | mos45gs02 s, .SP => s.sp.setWidth 32

/-- `regWriteByName` -/
def regWrite (val : BitVec 32) : Cpu → Reg → Cpu
  | mos6502 s, .A => mos6502 { s with a := val.setWidth 8 }
  | mos6502 s, .X => mos6502 { s with x := val.setWidth 8 }
  | mos6502 s, .Y => mos6502 { s with y := val.setWidth 8 }
  | mos6502 s, .P => mos6502 { s with p := val.setWidth 8 }
  | mos6502 s, .SP => mos6502 { s with sp := val.setWidth 8 }
  | mos45gs02 s, .A => mos45gs02 { s with a := val.setWidth 8 }
  | mos45gs02 s, .X => mos45gs02 { s with x := val.setWidth 8 }
  | mos45gs02 s, .Y => mos45gs02 { s with y := val.setWidth 8 }
  | mos45gs02 s, .P => mos45gs02 { s with p := val.setWidth 8 }
  | mos45gs02 s, .SP => mos45gs02 { s with sp := val.setWidth 16 }

def pc : Cpu → BitVec 16
  | mos6502 s => s.pc
  | mos45gs02 s => s.pc

def setPc (addr : BitVec 16) : Cpu → Cpu
  | mos6502 s => mos6502 { s with pc := addr }
  | mos45gs02 s => mos45gs02 { s with pc := addr }

/-- Whether the descriptor of SP has 16 bits. -/
def has16bitSP : Cpu → Bool
  | mos6502 _ => false
  | mos45gs02 _ => true

end Cpu

/-! ## The host -/

/-- A file of the host; it may be there and not open. -/
structure File where
  data : List Byte
  readable : Bool

/-- What becomes of a file that is to be written: it does not open, it is cut short, or it is written. -/
inductive HostWrite where
  | refused
  | full (kept : ℕ)
  | done
  deriving DecidableEq

abbrev Files := List Byte → Option File

/-- `operator/` of paths. -/
def joinPath (dir name : List Byte) : List Byte :=
  if name.head? = some 0x2F ∨ dir = [] then name
  else if dir.getLast? = some 0x2F then dir ++ name
  else dir ++ 0x2F :: name

/-- What the host is given of a path ends before a zero. -/
def hostName (path : List Byte) : List Byte := path.takeWhile (· ≠ 0)

/-- A CPU, its bus and the host. -/
structure World (ω : Type) where
  cpu : Cpu
  bus : ω
  files : Files

abbrev Exec (ω : Type) := StateM (World ω)

/-! ## Settings -/

structure ZeroPage where
  status : BitVec 16 := 0x90
  fnlen : BitVec 16 := 0xB7
  sa : BitVec 16 := 0xB9
  fa : BitVec 16 := 0xBA
  fnadr : BitVec 16 := 0xBB

/-- The intercept's settings, and the machine's way to the RAM under a ROM, if it has one. -/
structure KernalHLE (ω : Type) where
  m_load : BitVec 32 := 0xFFD5
  m_save : BitVec 32 := 0xFFD8
  m_zp : ZeroPage := {}
  m_hostPath : List Byte := [0x2E]
  m_readRam : Option (ω → BitVec 16 → Byte) := none

section
variable {ω : Type} [IBus ω]

/-! ## Accesses -/

def busRead (addr : BitVec 32) : Exec ω Byte := fun w =>
  let r := IBus.read8 w.bus addr
  (r.1, { w with bus := r.2 })

def busWrite (addr : BitVec 32) (val : Byte) : Exec ω Unit :=
  modify fun w => { w with bus := IBus.write8 w.bus addr val }

def regWrite (r : Reg) (val : BitVec 32) : Exec ω Unit :=
  modify fun w => { w with cpu := w.cpu.regWrite val r }

def setCarry (set : Bool) : Exec ω Unit := do
  let p : Byte := ((← get).cpu.regRead .P).setWidth 8
  regWrite .P ((if set then p ||| 0x01 else p &&& ~~~0x01).setWidth 32)

/-- Where RTS finds its two bytes, and the SP after them. -/
def pulls (cpu : Cpu) : BitVec 16 × BitVec 16 × BitVec 32 :=
  let sp := cpu.regRead .SP
  if cpu.has16bitSP then
    if cpu.regRead .P &&& 0x20 ≠ 0 then
      let page : BitVec 16 := (sp &&& 0xFF00).setWidth 16
      let at_ (n : BitVec 32) : BitVec 16 := page ||| ((sp + n) &&& 0xFF).setWidth 16
      (at_ 1, at_ 2, (at_ 2).setWidth 32)
    else (((sp + 1) &&& 0xFFFF).setWidth 16, ((sp + 2) &&& 0xFFFF).setWidth 16, (sp + 2) &&& 0xFFFF)
  else
    let at_ (n : BitVec 32) : BitVec 16 := 0x0100 ||| ((sp + n) &&& 0xFF).setWidth 16
    (at_ 1, at_ 2, (sp + 2) &&& 0xFF)

def simulateRts : Exec ω Unit := do
  let stack := pulls (← get).cpu
  regWrite .SP stack.2.2
  let lo ← busRead (stack.1.setWidth 32)
  let hi ← busRead (stack.2.1.setWidth 32)
  modify fun w => { w with cpu := w.cpu.setPc (hi ++ lo + 1) }

namespace KernalHLE
variable (h : KernalHLE ω)

def ramByte (addr : BitVec 16) : Exec ω Byte :=
  match h.m_readRam with
  | some readRam => do return readRam (← get).bus addr
  | none => busRead (addr.setWidth 32)

def getDevice : Exec ω Byte := busRead (h.m_zp.fa.setWidth 32)

def getSecondaryAddress : Exec ω Byte := busRead (h.m_zp.sa.setWidth 32)

/-- Bytes of the RAM from an address on. -/
def ramBytes (from_ : BitVec 16) (n : ℕ) : Exec ω (List Byte) :=
  (List.range n).mapM fun i => h.ramByte (from_ + BitVec.ofNat 16 i)

def getFilename : Exec ω (List Byte) := do
  let len ← busRead (h.m_zp.fnlen.setWidth 32)
  let lo ← busRead (h.m_zp.fnadr.setWidth 32)
  let hi ← busRead (h.m_zp.fnadr.setWidth 32 + 1)
  h.ramBytes (hi ++ lo) len.toNat

def setStatus (status : Byte) : Exec ω Unit := busWrite (h.m_zp.status.setWidth 32) status

/-- The path of a name, as the host sees it. -/
def path (name : List Byte) : List Byte := hostName (joinPath h.m_hostPath name)

/-! ## LOAD -/

/-- Write bytes from an address on; the address after them. -/
def inject : BitVec 32 → List Byte → Exec ω (BitVec 32)
  | loadAddr, [] => return loadAddr
  | loadAddr, b :: data => do
    busWrite loadAddr b
    inject (loadAddr + 1) data

/-- The bytes of a file that opens. -/
def opened (files : Files) (path : List Byte) : Option (List Byte) :=
  (files path).bind fun file => if file.readable then some file.data else none

/-- LOAD of the file that opened, if one did. -/
def loadFile (sa : Byte) : Option (List Byte) → Exec ω Unit
  | none => do  -- file not found
    h.setStatus 4
    setCarry true
    simulateRts
  | some (lo :: hi :: data) => do
    let cpu := (← get).cpu
    let xy : BitVec 32 := cpu.regRead .X ||| cpu.regRead .Y <<< 8
    let loadAddr ← inject (if sa = 0 then xy else (hi ++ lo).setWidth 32) data
    regWrite .X (loadAddr &&& 0xFF)
    regWrite .Y ((loadAddr >>> 8) &&& 0xFF)
    setCarry false
    h.setStatus 0
    simulateRts
  | some _ => do
    h.setStatus 4
    setCarry true

def handleLoad : Exec ω Unit := do
  let sa ← h.getSecondaryAddress
  let filename ← h.getFilename
  h.loadFile sa (opened (← get).files (h.path filename))

/-! ## SAVE -/

/-- Whether a file is replaced, and its name: without a drive and a type. -/
def parseName (name : List Byte) : Bool × List Byte :=
  let replace := name.head? = some 0x40
  let name := if replace then name.tail else name
  let name :=
    if name.take 2 = [0x30, 0x3A] then name.drop 2
    else if name.head? = some 0x3A then name.tail
    else name
  (replace, name.takeWhile (· ≠ 0x2C))

def fail (kernalError : BitVec 32) : Exec ω Unit := do
  regWrite .A kernalError
  setCarry true
  simulateRts

/-- The host writes a file; whether it took all of it. -/
def hostWrite (taken : HostWrite) (path out : List Byte) : Exec ω Bool := fun w =>
  let readable := ((w.files path).map File.readable).getD true
  let put (data : List Byte) : World ω := { w with files := Function.update w.files path (some ⟨data, readable⟩) }
  match taken with
  | .refused => (false, w)
  | .full kept => (false, put (out.take kept))
  | .done => (true, put out)

/-- Status 0, carry clear. -/
def succeed : Exec ω Unit := do
  h.setStatus 0
  setCarry false
  simulateRts

/-- SAVE from an address on to X/Y, under a path. -/
def saveFile (taken : HostWrite) (replace : Bool) (path : List Byte) (lo hi : Byte) : Exec ω Unit := do
  let start : BitVec 16 := hi ++ lo
  let w ← get
  let end_ : BitVec 16 := (w.cpu.regRead .X ||| w.cpu.regRead .Y <<< 8).setWidth 16
  if (w.files path).isSome ∧ !replace then h.succeed
  else if taken = .refused then fail 5  -- host folder not writable
  else
    let data ← h.ramBytes start (end_.toNat - start.toNat)
    if ← hostWrite taken path (lo :: hi :: data) then h.succeed
    else fail 5

def handleSave (taken : HostWrite) : Exec ω Unit := do
  let parsed := parseName (← h.getFilename)
  if parsed.2.isEmpty then fail 8  -- missing file name
  else
    let zp : Byte := ((← get).cpu.regRead .A).setWidth 8
    let lo ← busRead (zp.setWidth 32)
    let hi ← busRead ((zp + 1).setWidth 32)
    h.saveFile taken parsed.1 (h.path parsed.2) lo hi

/-! ## The intercept -/

/-- Whether the call was served. -/
def handle (answered : Byte → Bool) (taken : HostWrite) (pc : BitVec 32) : Exec ω Bool := do
  if pc ≠ h.m_load ∧ pc ≠ h.m_save then return false
  let device ← h.getDevice
  -- units below 8, and those that an emulated drive answers, are left to the KERNAL
  if device < 8 ∨ answered device then return false
  if pc = h.m_load then h.handleLoad
  else h.handleSave taken
  return true

end KernalHLE
end
end Mmemu.Source.KernalHle
