import Mathlib.Data.BitVec
import Mathlib.Logic.Function.Basic

/-!
# Debug symbols of .o45 object files

Source: src/libdebug/main/o45_symbol_parser.cpp and the table of
src/libtoolchain/main/variable_symbol.cpp. An index outside the data is `none`. A map is the list of
its entries in the order of their keys where the source goes through it, a function elsewhere.
-/
namespace Mmemu.Source.O45SymbolParser

abbrev Byte := BitVec 8

/-- The bytes of a `std::string`. -/
abbrev Name := List Byte

inductive VariableType where
  | UNKNOWN | INT8 | INT16 | INT32 | UINT8 | UINT16 | UINT32 | CHAR | POINTER | STRUCT | ARRAY
  deriving DecidableEq, Repr

structure VariableSymbol where
  name : Name
  functionName : Name
  address : BitVec 32
  size : BitVec 32
  type : VariableType
  sourceLine : ℤ
  isParameter : Bool
  isFrameRelative : Bool
  displayName : Name
  deriving DecidableEq, Repr

/-! ## The readers -/

def checkBounds (data : List Byte) (offset : ℕ) : Bool := offset < data.length

/-- The loop of `readString`, with so many bytes left. -/
def readChars (data : List Byte) : ℕ → ℕ → Name → Option (Bool × ℕ × Name)
  | 0, offset, outStr => some (false, offset, outStr)
  | left + 1, offset, outStr => do
    let c ← data[offset]?
    if c = 0 then return (true, offset + 1, outStr)
    readChars data left (offset + 1) (outStr ++ [c])

/-- Whether the string ended, the offset behind it and the string. -/
def readString (data : List Byte) (offset : ℕ) : Option (Bool × ℕ × Name) :=
  readChars data (data.length - offset) offset []

def readUint16LE (data : List Byte) (offset : ℕ) : Option (BitVec 16 × ℕ) :=
  if !checkBounds data (offset + 1) then some (0, offset)
  else do
    let lo ← data[offset]?
    let hi ← data[offset + 1]?
    return (hi ++ lo, offset + 2)

/-- The bits of an `int16_t`. -/
def readInt16LE (data : List Byte) (offset : ℕ) : Option (BitVec 16 × ℕ) := readUint16LE data offset

def readUint8 (data : List Byte) (offset : ℕ) : Option (Byte × ℕ) :=
  if !checkBounds data offset then some (0, offset)
  else do
    let val ← data[offset]?
    return (val, offset + 1)

/-! ## The parser -/

def parameter (funcName paramName : Name) (paramOffset : BitVec 16) : VariableSymbol where
  name := paramName
  functionName := funcName
  displayName := paramName
  address := paramOffset.signExtend 32
  size := 2
  type := .INT16
  isParameter := true
  isFrameRelative := true
  sourceLine := -1

/-- `std::map<std::string, std::vector<VariableSymbol>>` -/
abbrev Variables := List (Name × List VariableSymbol)

/-- `outVariables[funcName] = params` -/
def assign (funcName : Name) (params : List VariableSymbol) : Variables → Variables
  | [] => [(funcName, params)]
  | entry :: rest =>
    if funcName = entry.1 then (funcName, params) :: rest
    else if funcName < entry.1 then (funcName, params) :: entry :: rest
    else entry :: assign funcName params rest

/-- The parameters of a function; no list where a name does not end. -/
def readParams (data : List Byte) (funcName : Name) :
    ℕ → ℕ → List VariableSymbol → Option (Option (List VariableSymbol) × ℕ)
  | 0, offset, params => some (some params, offset)
  | left + 1, offset, params => do
    let (ended, offset, paramName) ← readString data offset
    if !ended then return (none, offset)
    let (paramOffset, offset) ← readInt16LE data offset
    readParams data funcName left offset (params ++ [parameter funcName paramName paramOffset])

def readProcs (data : List Byte) : ℕ → ℕ → Variables → Option (Bool × Variables)
  | 0, _, outVariables => some (true, outVariables)
  | left + 1, offset, outVariables => do
    let (ended, offset, funcName) ← readString data offset
    if !ended then return (false, outVariables)
    let (paramCount, offset) ← readUint8 data offset
    let (params, offset) ← readParams data funcName paramCount.toNat offset []
    match params with
    | none => return (false, outVariables)
    | some params =>
      let (terminator, offset) ← readUint8 data offset
      if terminator ≠ 0xFF then return (false, outVariables)
      readProcs data left offset (assign funcName params outVariables)

def parse (data : List Byte) : Option (Bool × Variables) :=
  if data.isEmpty then some (false, [])
  else do
    let (procCount, offset) ← readUint16LE data 0
    readProcs data procCount.toNat offset []

/-! ## The table -/

structure VariableSymbolTable where
  m_functionVariables : Name → Name → Option VariableSymbol
  m_globalVariables : Name → Option VariableSymbol

namespace VariableSymbolTable

def addGlobalVariable (t : VariableSymbolTable) (var : VariableSymbol) : VariableSymbolTable :=
  { t with m_globalVariables := Function.update t.m_globalVariables var.name (some var) }

def addVariable (t : VariableSymbolTable) (functionName : Name) (var : VariableSymbol) : VariableSymbolTable :=
  if functionName.isEmpty then t.addGlobalVariable var
  else
    { t with
      m_functionVariables := Function.update t.m_functionVariables functionName
        (Function.update (t.m_functionVariables functionName) var.name (some var)) }

end VariableSymbolTable

def populateTable (data : List Byte) (table : VariableSymbolTable) : Option (Bool × VariableSymbolTable) := do
  let (parsed, found) ← parse data
  if !parsed then return (false, table)
  return (true, found.foldl (fun t entry => entry.2.foldl (fun t var => t.addVariable entry.1 var) t) table)

end Mmemu.Source.O45SymbolParser
