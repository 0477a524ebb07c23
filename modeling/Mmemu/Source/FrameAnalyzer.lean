import Mathlib.Data.BitVec

/-!
# Stack frame layouts

Source: src/libdebug/main/frame_analyzer.cpp and frame_analyzer.h, the detection of gaps.
-/
namespace Mmemu.Source.FrameAnalyzer

inductive EntryType where
  | VARIABLE | STRUCT_FIELD | GAP
  deriving DecidableEq, Repr

inductive Status where
  | UNKNOWN | UNINITIALIZED | WRONG_VALUE | INITIALIZED | NO_SOURCE
  deriving DecidableEq, Repr

structure FrameLayoutEntry where
  type : EntryType := .VARIABLE
  status : Status := .UNKNOWN
  name : String := ""
  displayName : String := ""
  typeStr : String := ""
  offset : BitVec 32 := 0
  size : BitVec 32 := 0
  value : List (BitVec 8) := []
  expectedValue : List (BitVec 8) := []
  level : ℕ := 0
  comment : String := ""
  deriving DecidableEq, Repr

/-- What the loop of `detectGaps` adds for an entry and the one after it. -/
def gapBetween (current next : FrameLayoutEntry) : Option FrameLayoutEntry :=
  let endOfCurrent := current.offset + current.size
  let startOfNext := next.offset
  if endOfCurrent < startOfNext then
    some
      { type := .GAP
        name := "[UNALLOCATED]"
        displayName := "[gap]"
        typeStr := "-"
        offset := endOfCurrent
        size := startOfNext - endOfCurrent
        status := .UNKNOWN }
  else none

def detectGaps : List FrameLayoutEntry → List FrameLayoutEntry
  | current :: next :: rest => (gapBetween current next).toList ++ detectGaps (next :: rest)
  | _ => []

end Mmemu.Source.FrameAnalyzer
