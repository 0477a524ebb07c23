import Mathlib.Data.BitVec

/-!
# RIOT 6532

Source: src/plugins/devices/riot6532/main/riot6532.cpp and riot6532.h. The levels that the ports' pins
have are part of the state.
-/
namespace Mmemu.Source.Riot6532

abbrev Byte := BitVec 8

structure Riot where
  m_ram : BitVec 7 → Byte
  m_timer : Byte
  m_divider : BitVec 32
  m_shift : BitVec 32
  m_subTimer : BitVec 32
  m_wrappedThisCycle : Bool
  m_lastCycle : BitVec 64
  m_ddrA : Byte
  m_ddrB : Byte
  m_outA : Byte
  m_outB : Byte
  m_flags : Byte
  m_edgePositive : Bool
  m_pa7Sync : Bool
  m_pa7Stable : Bool
  portA : Byte
  portB : Byte

namespace Riot

def reset (r : Riot) : Riot :=
  { r with
    m_ram := fun _ => 0
    m_timer := 0xAA
    m_divider := 1024
    m_shift := 10
    m_subTimer := 0
    m_wrappedThisCycle := false
    m_ddrA := 0
    m_ddrB := 0
    m_outA := 0
    m_outB := 0
    m_flags := 0
    m_edgePositive := false
    m_pa7Sync := true
    m_pa7Stable := true }

def new (portA portB : Byte) : Riot :=
  reset ⟨fun _ => 0, 0, 1024, 10, 0, false, 0, 0, 0, 0, 0, 0, false, true, true, portA, portB⟩

def pa7 (r : Riot) : Bool := if r.m_ddrA.getLsbD 7 then r.m_outA.getLsbD 7 else r.portA.getLsbD 7

/-- The timer's flag is set: it counts every cycle. -/
def countCycles (r : Riot) (cycles : BitVec 32) : Riot :=
  let timer := (r.m_timer.setWidth 32 - cycles).setWidth 8
  { r with m_timer := timer, m_wrappedThisCycle := timer = 0xFF }

/-- The timer, in `sync`. -/
def countTimer (r : Riot) (cycles : BitVec 32) : Riot :=
  let sub := r.m_subTimer
  let r := { r with
    m_wrappedThisCycle := false
    m_subTimer := (cycles + r.m_subTimer) &&& (r.m_divider - 1) }
  if r.m_flags.getLsbD 7 then r.countCycles cycles
  else
    let ticks := (cycles + sub) >>> r.m_shift
    if r.m_timer.setWidth 32 < ticks then
      let cycles := cycles - (((r.m_timer.setWidth 32 + 1) <<< r.m_shift) - sub)
      { r with
        m_wrappedThisCycle := cycles = 0
        m_timer := 0xFF
        m_flags := r.m_flags ||| 0x80 }.countCycles cycles
    else { r with m_timer := (r.m_timer.setWidth 32 - ticks).setWidth 8 }

/-- PA7's edge, in `sync`: a synchroniser of two stages. -/
def detectEdge (r : Riot) : Riot :=
  let stable := r.m_pa7Sync
  { r with
    m_pa7Sync := r.pa7
    m_flags := if r.m_pa7Stable ≠ stable ∧ stable = r.m_edgePositive then r.m_flags ||| 0x40 else r.m_flags
    m_pa7Stable := stable }

def sync (r : Riot) (cpuCycle : BitVec 64) : Riot :=
  if cpuCycle ≤ r.m_lastCycle then r
  else
    { (r.countTimer ((cpuCycle - r.m_lastCycle).setWidth 32)).detectEdge with m_lastCycle := cpuCycle }

def peek (r : Riot) (addr : BitVec 16) : Byte :=
  if addr &&& 0x200 = 0 then r.m_ram (addr.setWidth 7)
  else
    match (addr &&& 7).toNat with
    | 0 => (r.m_outA ||| ~~~r.m_ddrA) &&& r.portA
    | 1 => r.m_ddrA
    | 2 => (r.m_outB ||| ~~~r.m_ddrB) &&& (r.portB ||| r.m_ddrB)
    | 3 => r.m_ddrB
    | 4 | 6 => r.m_timer
    | _ => r.m_flags

def read (r : Riot) (addr : BitVec 16) : Byte × Riot :=
  let v := r.peek addr
  if addr &&& 0x200 = 0 then (v, r)
  else
    match (addr &&& 7).toNat with
    | 4 | 6 =>  -- INTIM: clears the timer flag
      (v, if r.m_wrappedThisCycle then r else { r with m_flags := r.m_flags &&& ~~~0x80 })
    | 5 | 7 => (v, { r with m_flags := r.m_flags &&& ~~~0x40 })
    | _ => (v, r)

/-- The interval's divider and shift. -/
def interval : BitVec 2 → BitVec 32 × BitVec 32
  | 0 => (1, 0)
  | 1 => (8, 3)
  | 2 => (64, 6)
  | _ => (1024, 10)

def setTimer (r : Riot) (value : Byte) (i : BitVec 2) : Riot :=
  { r with
    m_divider := (interval i).1
    m_shift := (interval i).2
    m_timer := value
    m_subTimer := (interval i).1 - 1
    m_flags := if r.m_wrappedThisCycle then r.m_flags else r.m_flags &&& ~~~0x80 }

def write (r : Riot) (addr : BitVec 16) (value : Byte) : Riot :=
  if addr &&& 0x200 = 0 then { r with m_ram := Function.update r.m_ram (addr.setWidth 7) value }
  else if addr &&& 4 ≠ 0 then
    if addr &&& 0x10 ≠ 0 then r.setTimer value (addr.setWidth 2)
    else { r with m_edgePositive := addr.getLsbD 0 }
  else
    match (addr &&& 3).toNat with
    | 0 => { r with m_outA := value }
    | 1 => { r with m_ddrA := value }
    | 2 => { r with m_outB := value }
    | _ => { r with m_ddrB := value }

end Riot
end Mmemu.Source.Riot6532
