import Mathlib.Data.BitVec
import Mathlib.Data.Int.Notation

/-!
# The MEGA65 real-time clock

Source: src/plugins/devices/mega65_rtc/main/mega65_rtc.cpp. The host time is an argument of what
asks for it, as `localtime` gives it.
-/
namespace Mmemu.Source.Mega65Clock

/-- The fields of a host time, in the ranges that `localtime` keeps to. -/
structure Tm where
  tm_sec : ℤ
  tm_min : ℤ
  tm_hour : ℤ
  tm_mday : ℤ
  tm_mon : ℤ
  tm_year : ℤ
  sec_range : 0 ≤ tm_sec ∧ tm_sec ≤ 60
  min_range : 0 ≤ tm_min ∧ tm_min < 60
  hour_range : 0 ≤ tm_hour ∧ tm_hour < 24
  mday_range : 1 ≤ tm_mday ∧ tm_mday ≤ 31
  mon_range : 0 ≤ tm_mon ∧ tm_mon < 12
  year_range : 0 ≤ tm_year

/-- The clock claims 128 bytes from a multiple of 128 on. -/
structure Mega65Rtc where
  m_base : BitVec 32
  m_offsetSec : ℤ
  m_offsetMin : ℤ
  m_offsetHour : ℤ
  m_offsetDay : ℤ
  m_offsetMon : ℤ
  m_offsetYear : ℤ
  m_offsetActive : Bool
  m_nvram : ℕ → BitVec 8
  m_physBus : Bool
  m_tickAccum : BitVec 64
  aligned : m_base &&& 0x7F = 0

def toBcd (val : ℤ) : BitVec 8 := BitVec.ofNat 8 ((val.toNat / 10) <<< 4 ||| val.toNat % 10)

def fromBcd (bcd : BitVec 8) : ℤ := ((bcd >>> 4).toNat * 10 + (bcd &&& 0x0F).toNat : ℕ)

def addrMask : BitVec 32 := 0x7F

namespace Mega65Rtc
variable (rtc : Mega65Rtc)

def reset : Mega65Rtc :=
  { rtc with
    m_offsetSec := 0, m_offsetMin := 0, m_offsetHour := 0
    m_offsetDay := 0, m_offsetMon := 0, m_offsetYear := 0
    m_offsetActive := false
    m_nvram := fun _ => 0 }

/-- What the constructor leaves. -/
def create (base : BitVec 32) (aligned : base &&& 0x7F = 0) (physBus : Bool) : Mega65Rtc where
  m_base := base
  m_offsetSec := 0
  m_offsetMin := 0
  m_offsetHour := 0
  m_offsetDay := 0
  m_offsetMon := 0
  m_offsetYear := 0
  m_offsetActive := false
  m_nvram _ := 0
  m_physBus := physBus
  m_tickAccum := 0
  aligned := aligned

/-- `if (x < low) x = low; if (x > high) x = high;` -/
def clamp (low high x : ℤ) : ℤ :=
  let x := if x < low then low else x
  if x > high then high else x

/-- `while (x < 0) x += m; x %= m;` is the remainder that is not negative. -/
def normalize (m x : ℤ) : ℤ := x % m

/-- The byte of a register, from 0 to 5. -/
def register (t : Tm) : ℕ → BitVec 8
  | 0 => toBcd (normalize 60 (t.tm_sec + rtc.m_offsetSec))
  | 1 => toBcd (normalize 60 (t.tm_min + rtc.m_offsetMin))
  | 2 => toBcd (normalize 24 (t.tm_hour + rtc.m_offsetHour)) ||| 0x80
  | 3 => toBcd (clamp 1 31 (t.tm_mday + rtc.m_offsetDay))
  | 4 => toBcd (clamp 1 12 (t.tm_mon + 1 + rtc.m_offsetMon))
  | 5 => toBcd (normalize 100 (t.tm_year.tmod 100 + rtc.m_offsetYear))
  | _ => 0

/-- The registers below 0x10 belong to the DMA controller. -/
def ioRead (addr : BitVec 32) (t : Tm) : Option (BitVec 8) :=
  if addr &&& ~~~addrMask ≠ rtc.m_base then none
  else
    let reg := (addr &&& 0x7F).toNat
    if reg ≤ 0x0F then none
    else if 0x40 ≤ reg ∧ reg ≤ 0x7F then some (rtc.m_nvram (reg - 0x40))
    else if reg < 0x10 ∨ reg > 0x15 then some 0
    else some (rtc.register t (reg - 0x10))

/-- The offset that a write to a register leaves. The mask of the hours is put on the number. -/
def setRegister (t : Tm) (written : ℤ) : ℕ → Mega65Rtc
  | 0 => { rtc with m_offsetSec := written - t.tm_sec, m_offsetActive := true }
  | 1 => { rtc with m_offsetMin := written - t.tm_min, m_offsetActive := true }
  | 2 => { rtc with m_offsetHour := (written.toNat &&& 0x3F : ℕ) - t.tm_hour, m_offsetActive := true }
  | 3 => { rtc with m_offsetDay := written - t.tm_mday, m_offsetActive := true }
  | 4 => { rtc with m_offsetMon := written - (t.tm_mon + 1), m_offsetActive := true }
  | 5 => { rtc with m_offsetYear := written - t.tm_year.tmod 100, m_offsetActive := true }
  | _ => { rtc with m_offsetActive := true }

/-- The clock after a write, and whether the write was for it. -/
def ioWrite (addr : BitVec 32) (val : BitVec 8) (t : Tm) : Mega65Rtc × Bool :=
  if addr &&& ~~~addrMask ≠ rtc.m_base then (rtc, false)
  else
    let reg := (addr &&& 0x7F).toNat
    if reg ≤ 0x0F then (rtc, false)
    else if 0x40 ≤ reg ∧ reg ≤ 0x7F then
      ({ rtc with m_nvram := fun i => if i = reg - 0x40 then val else rtc.m_nvram i }, true)
    else if reg < 0x10 ∨ reg > 0x15 then (rtc, true)
    else (rtc.setRegister t (fromBcd (val &&& 0x7F)) (reg - 0x10), true)

/-- The copy of the registers on the physical bus. -/
def copy (t : Tm) : List (BitVec 32 × BitVec 8) :=
  let sec := (t.tm_sec + rtc.m_offsetSec + 60).tmod 60
  let min := (t.tm_min + rtc.m_offsetMin + 60).tmod 60
  let hour := (t.tm_hour + rtc.m_offsetHour + 24).tmod 24
  let day := clamp 1 31 (t.tm_mday + rtc.m_offsetDay)
  let mon := clamp 1 12 (t.tm_mon + 1 + rtc.m_offsetMon)
  let year := (t.tm_year.tmod 100 + rtc.m_offsetYear + 100).tmod 100
  let base := 0x0FFD7110
  [(base + 0, toBcd sec), (base + 1, toBcd min), (base + 2, toBcd hour ||| 0x80),
    (base + 3, toBcd day), (base + 4, toBcd mon), (base + 5, toBcd year)]

/-- The clock after some cycles and the writes it makes to the physical bus. -/
def tick (cycles : BitVec 64) (t : Tm) : Mega65Rtc × List (BitVec 32 × BitVec 8) :=
  if rtc.m_physBus = false then (rtc, [])
  else
    let accum := rtc.m_tickAccum + cycles
    if accum < 1000 then ({ rtc with m_tickAccum := accum }, [])
    else ({ rtc with m_tickAccum := 0 }, rtc.copy t)

end Mega65Rtc
end Mmemu.Source.Mega65Clock
