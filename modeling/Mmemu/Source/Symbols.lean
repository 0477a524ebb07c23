import Mathlib.Data.BitVec
import Mathlib.Logic.Function.Basic

/-!
# Symbols by address and by name

`symbol_table.cpp`: two maps, from addresses to labels and from labels to addresses.
Several labels may be given one address; the map by address holds the last one.
-/
namespace Mmemu.Source.SymbolTable

structure SymbolTable where
  m_addrToLabel : BitVec 32 → Option String
  m_labelToAddr : String → Option (BitVec 32)

namespace SymbolTable

def empty : SymbolTable where
  m_addrToLabel _ := none
  m_labelToAddr _ := none

def addSymbol (t : SymbolTable) (addr : BitVec 32) (label : String) : SymbolTable where
  m_addrToLabel := Function.update t.m_addrToLabel addr (some label)
  m_labelToAddr := Function.update t.m_labelToAddr label (some addr)

def removeSymbol (t : SymbolTable) (label : String) : SymbolTable :=
  match t.m_labelToAddr label with
  | some addr =>
    { m_addrToLabel := Function.update t.m_addrToLabel addr none
      m_labelToAddr := Function.update t.m_labelToAddr label none }
  | none => t

def clear (_ : SymbolTable) : SymbolTable := empty

def getLabel (t : SymbolTable) (addr : BitVec 32) : String := (t.m_addrToLabel addr).getD ""

def getAddress (t : SymbolTable) (label : String) : BitVec 32 :=
  (t.m_labelToAddr label).getD 0xFFFFFFFF

def hasSymbol (t : SymbolTable) (addr : BitVec 32) : Bool := (t.m_addrToLabel addr).isSome

end SymbolTable

end Mmemu.Source.SymbolTable

/-!
# Source lines by address and addresses by source line

`source_map.cpp`: two indexes, from addresses to lines and from the lines of each file to
addresses. The second keeps the lowest address of a line.
-/
namespace Mmemu.Source.SourceMap

structure SourceLocation where
  file : String
  line : ℤ
  deriving DecidableEq

structure SourceMap where
  m_addrToSource : BitVec 32 → Option SourceLocation
  m_sourceToAddr : String → Option (ℤ → Option (BitVec 32))

namespace SourceMap

def empty : SourceMap where
  m_addrToSource _ := none
  m_sourceToAddr _ := none

/-- The lines of a file, where a file that has none gets its empty map. -/
def lines (m : SourceMap) (file : String) : ℤ → Option (BitVec 32) :=
  (m.m_sourceToAddr file).getD fun _ => none

def addMapping (m : SourceMap) (addr : BitVec 32) (file : String) (line : ℤ) : SourceMap where
  m_addrToSource := Function.update m.m_addrToSource addr (some ⟨file, line⟩)
  m_sourceToAddr := Function.update m.m_sourceToAddr file <| some <|
    match m.lines file line with
    | none => Function.update (m.lines file) line (some addr)
    | some it => if addr < it then Function.update (m.lines file) line (some addr) else m.lines file

def clear (_ : SourceMap) : SourceMap := empty

def addrToSource (m : SourceMap) (addr : BitVec 32) : SourceLocation :=
  (m.m_addrToSource addr).getD ⟨"", -1⟩

def sourceToAddr (m : SourceMap) (file : String) (line : ℤ) : BitVec 32 :=
  match m.m_sourceToAddr file with
  | some lines => (lines line).getD 0xFFFFFFFF
  | none => 0xFFFFFFFF

end SourceMap

end Mmemu.Source.SourceMap
