import Mmemu.Library.WordBytes
import Mmemu.Source.StdText

/-!
# BASIC tokenizer

`basic_tokenizer.cpp`: BASIC text to a tokenised program, for BASIC V2 and BASIC 65. A
character of a text is one byte.
-/
namespace Mmemu.Source.BasicTokenizer
open Mmemu.Library.LittleEndian Mmemu.Library.Numerals Mmemu.Source.StdText
open Mmemu.Source.Assembler6502 (Text hexDigits decimalDigits isBlank)

abbrev Tokens := List (String × List Byte)

/-! ## Tables -/

inductive Dialect where
  | Basic2
  | Basic65

def basic2Names : List String :=
  ["END", "FOR", "NEXT", "DATA", "INPUT#", "INPUT", "DIM", "READ", "LET", "GOTO", "RUN", "IF",
    "RESTORE", "GOSUB", "RETURN", "REM", "STOP", "ON", "WAIT", "LOAD", "SAVE", "VERIFY", "DEF",
    "POKE", "PRINT#", "PRINT", "CONT", "LIST", "CLR", "CMD", "SYS", "OPEN", "CLOSE", "GET", "NEW",
    "TAB(", "TO", "FN", "SPC(", "THEN", "NOT", "STEP", "+", "-", "*", "/", "^", "AND", "OR", ">",
    "=", "<", "SGN", "INT", "ABS", "USR", "FRE", "POS", "SQR", "RND", "LOG", "EXP", "COS", "SIN",
    "TAN", "ATN", "PEEK", "LEN", "STR$", "VAL", "ASC", "CHR$", "LEFT$", "RIGHT$", "MID$", "GO"]

/-- From 0x80 on. -/
def basic2Table : Tokens :=
  basic2Names.zipIdx.map fun (name, n) => (name, [BitVec.ofNat 8 (0x80 + n)])

def basic65Extra : Tokens :=
  [("RGRAPHIC", [0xCC]), ("RCOLOR", [0xCD]), ("JOY", [0xCF]), ("RPEN", [0xD0]), ("DEC", [0xD1]),
    ("HEX$", [0xD2]), ("ERR$", [0xD3]), ("INSTR", [0xD4]), ("ELSE", [0xD5]), ("RESUME", [0xD6]),
    ("TRAP", [0xD7]), ("TRON", [0xD8]), ("TROFF", [0xD9]), ("SOUND", [0xDA]), ("VOL", [0xDB]),
    ("AUTO", [0xDC]), ("GRAPHIC", [0xDE]), ("PAINT", [0xDF]), ("CHAR", [0xE0]), ("BOX", [0xE1]),
    ("CIRCLE", [0xE2]), ("LINE", [0xE5]), ("MERGE", [0xE6]), ("COLOR", [0xE7]), ("SCNCLR", [0xE8]),
    ("XOR", [0xE9]), ("HELP", [0xEA]), ("DO", [0xEB]), ("LOOP", [0xEC]), ("WHILE", [0xED]),
    ("DIR", [0xEE]), ("DSAVE", [0xEF]), ("DLOAD", [0xF0]), ("HEADER", [0xF1]), ("SCRATCH", [0xF2]),
    ("COLLECT", [0xF3]), ("COPY", [0xF4]), ("RENAME", [0xF5]), ("BACKUP", [0xF6]),
    ("DELETE", [0xF7]), ("RENUMBER", [0xF8]), ("KEY", [0xF9]), ("MONITOR", [0xFA]),
    ("USING", [0xFB]), ("UNTIL", [0xFC]), ("EXIT", [0xFD]), ("POT", [0xCE, 0x02]),
    ("BUMP", [0xCE, 0x03]), ("LPEN", [0xCE, 0x04]), ("RSPPOS", [0xCE, 0x05]),
    ("RSPRITE", [0xCE, 0x06]), ("RSPCOLOR", [0xCE, 0x07]), ("LOG10", [0xCE, 0x08]),
    ("RWINDOW", [0xCE, 0x09]), ("POINTER", [0xCE, 0x0A]), ("PIXEL", [0xCE, 0x0C]),
    ("BANK", [0xFE, 0x02]), ("FILTER", [0xFE, 0x03]), ("PLAY", [0xFE, 0x04]),
    ("TEMPO", [0xFE, 0x05]), ("MOVSPR", [0xFE, 0x06]), ("SPRITE", [0xFE, 0x07]),
    ("SPRCOLOR", [0xFE, 0x08]), ("RREG", [0xFE, 0x09]), ("ENVELOPE", [0xFE, 0x0A]),
    ("SLEEP", [0xFE, 0x0B]), ("CATALOG", [0xFE, 0x0C]), ("DOPEN", [0xFE, 0x0D]),
    ("APPEND", [0xFE, 0x0E]), ("DCLOSE", [0xFE, 0x0F]), ("BSAVE", [0xFE, 0x10]),
    ("BLOAD", [0xFE, 0x11]), ("RECORD", [0xFE, 0x12]), ("CONCAT", [0xFE, 0x13]),
    ("DVERIFY", [0xFE, 0x14]), ("DCLEAR", [0xFE, 0x15]), ("SPRSAV", [0xFE, 0x16]),
    ("COLLISION", [0xFE, 0x17]), ("BEGIN", [0xFE, 0x18]), ("BEND", [0xFE, 0x19]),
    ("WINDOW", [0xFE, 0x1A]), ("BOOT", [0xFE, 0x1B]), ("FREAD", [0xFE, 0x1C]),
    ("FWRITE", [0xFE, 0x1E]), ("DMA", [0xFE, 0x1F]), ("EDMA", [0xFE, 0x21]), ("OFF", [0xFE, 0x24]),
    ("FAST", [0xFE, 0x25]), ("SLOW", [0xFE, 0x26]), ("TYPE", [0xFE, 0x27]),
    ("BVERIFY", [0xFE, 0x28]), ("ERASE", [0xFE, 0x2A]), ("FIND", [0xFE, 0x2B]),
    ("CHANGE", [0xFE, 0x2C]), ("SET", [0xFE, 0x2D]), ("SCREEN", [0xFE, 0x2E]),
    ("POLYGON", [0xFE, 0x2F]), ("ELLIPSE", [0xFE, 0x30]), ("VIEWPORT", [0xFE, 0x31]),
    ("PEN", [0xFE, 0x33]), ("PALETTE", [0xFE, 0x34]), ("DMODE", [0xFE, 0x35]),
    ("DPAT", [0xFE, 0x36]), ("FOREGROUND", [0xFE, 0x39]), ("BACKGROUND", [0xFE, 0x3B]),
    ("BORDER", [0xFE, 0x3C]), ("HIGHLIGHT", [0xFE, 0x3D]), ("MOUSE", [0xFE, 0x3E]),
    ("RMOUSE", [0xFE, 0x3F]), ("DISK", [0xFE, 0x40]), ("RCURSOR", [0xFE, 0x42]),
    ("LOADIFF", [0xFE, 0x43]), ("FONT", [0xFE, 0x46])]

def escapeNames : List (String × Byte) :=
  [("clr", 0x93), ("home", 0x13), ("up", 0x91), ("down", 0x11), ("left", 0x9D), ("right", 0x1D),
    ("rvs on", 0x12), ("rvs off", 0x92), ("rvon", 0x12), ("rvof", 0x92), ("del", 0x14),
    ("inst", 0x94), ("blk", 0x90), ("wht", 0x05), ("red", 0x1C), ("cyn", 0x9F), ("pur", 0x9C),
    ("grn", 0x1E), ("blu", 0x1F), ("yel", 0x9E), ("orng", 0x81), ("brn", 0x95), ("lred", 0x96),
    ("gry1", 0x97), ("gry2", 0x98), ("lgrn", 0x99), ("lblu", 0x9A), ("gry3", 0x9B), ("f1", 0x85),
    ("f3", 0x86), ("f5", 0x87), ("f7", 0x88), ("f2", 0x89), ("f4", 0x8A), ("f6", 0x8B),
    ("f8", 0x8C), ("return", 0x0D), ("space", 0x20), ("pi", 0xFF)]

/-- Pound, pi and two arrows in UTF-8. -/
def utf8 : List (List ℕ × Byte) :=
  [([0xC2, 0xA3], 0x5C), ([0xCF, 0x80], 0xFF), ([0xE2, 0x86, 0x91], 0x5E), ([0xE2, 0x86, 0x90], 0x5F)]

def table : Dialect → Tokens
  | .Basic2 => basic2Table
  | .Basic65 => basic2Table ++ basic65Extra

/-! ## Statements -/

/-- `std::strtol`, which stops at the ends of its range, kept in an `int`. -/
def toInt {base : ℕ} (digits : Digits Char base) (isDigit : Char → Bool) (skip : Text → Text)
    (text : Text) : ℤ :=
  let (negative, rest) := signed text
  let n : ℤ := digits.value (((skip rest).takeWhile isDigit).map Char.toUpper)
  (BitVec.ofInt 32 (max (-2 ^ 63) (min (if negative then -n else n) (2 ^ 63 - 1)))).toInt

def atoi : Text → ℤ := toInt decimalDigits Char.isDigit id

def strtol16 : Text → ℤ := toInt hexDigits isxdigit withoutPrefix

/-- What stands between braces: a byte and how often. -/
def escape (name : Text) : Option (Byte × ℕ) :=
  let (name, times) := match name.span (· != '*') with
    | (name, _ :: count) => (name, atoi count)
    | (name, []) => (name, 1)
  let name := name.map Char.toLower
  let value : ℤ := match name with
    | [] => -1
    | '$' :: digits => strtol16 digits
    | c :: _ =>
      if c.isDigit then atoi name
      else ((escapeNames.lookup (String.ofList name)).map fun b => (b.toNat : ℤ)).getD (-1)
  if value < 0 ∨ 255 < value ∨ times < 1 then none
  else some (BitVec.ofInt 8 value, times.toNat)

def iequalsPrefix (s kw : Text) : Bool :=
  kw.length ≤ s.length && (s.take kw.length).map Char.toUpper == kw

/-- The longest keyword in front, the first of these in the table. -/
def keyword (table : Tokens) (s : Text) : Option (ℕ × List Byte) :=
  table.foldl (fun best (kw, tok) =>
    if (best.map Prod.fst).getD 0 < kw.toList.length && iequalsPrefix s kw.toList then
      some (kw.toList.length, tok)
    else best) none

/-- ASCII to PETSCII. -/
def petscii (c : Char) : Option Byte :=
  if 'a' ≤ c ∧ c ≤ 'z' then some (BitVec.ofNat 8 (c.toNat - 0x61 + 0x41))
  else if c = '\\' then some 0x5C
  else if c = '_' then some 0x5F
  else if c = '\t' then some 0x20
  else if 0x20 ≤ c.toNat ∧ c.toNat ≤ 0x5E then some (BitVec.ofNat 8 c.toNat)
  else none

structure Mode where
  inQuote : Bool
  inRem : Bool
  inData : Bool

def text (s : String) : Text := s.toList

/-- The statements of a line as bytes, or what is wrong with them. The number is how many of the
next characters have been dealt with. -/
def crunch (table : Tokens) : ℕ → Mode → Text → Except Text (List Byte)
  | _, _, [] => .ok []
  | done + 1, mode, _ :: rest => crunch table done mode rest
  | 0, mode, c :: rest =>
    if c = '\x7b' then
      match rest.span (· != '\x7d') with
      | (_, []) => .error (text "unterminated \x7b")
      | (name, _ :: _) =>
        match escape name with
        | none => .error (text "unknown escape \x7b" ++ name ++ text "\x7d")
        | some (value, times) =>
          (List.replicate times value ++ ·) <$> crunch table (name.length + 1) mode rest
    else if 0x80 ≤ c.toNat then
      match utf8.find? fun (seq, _) => seq.isPrefixOf ((c :: rest).map Char.toNat) with
      | none => .error (text "character not in PETSCII")
      | some (seq, v) => (v :: ·) <$> crunch table (seq.length - 1) mode rest
    else
      let literal := mode.inQuote || mode.inRem || (mode.inData && c != ':')
      if !literal && c == '?' then (0x99 :: ·) <$> crunch table 0 mode rest
      else
        match if literal then none else keyword table (c :: rest) with
        | some (length, tok) =>
          -- REM and DATA
          let mode := { mode with
            inRem := mode.inRem || tok == [0x8F], inData := mode.inData || tok == [0x83] }
          (tok ++ ·) <$> crunch table (length - 1) mode rest
        | none =>
          let inQuote := mode.inQuote ^^ (c == '\x22')
          let inData := mode.inData && (inQuote || c != ':')
          match petscii c with
          | none => .error (text "character '" ++ [c] ++ text "' not in PETSCII")
          | some pet => (pet :: ·) <$> crunch table 0 { mode with inQuote, inData } rest

/-! ## Lines -/

/-- `std::getline`, time after time. -/
def getlines : Text → List Text
  | [] => []
  | c :: rest =>
    if c = '\n' then [] :: getlines rest
    else match getlines rest with
      | [] => [[c]]
      | line :: lines => (c :: line) :: lines

def withoutReturn (line : Text) : Text :=
  if line.getLast? = some '\r' then line.dropLast else line

/-- The digits are read up to where the number is too large. -/
def lineNumber : ℕ → Text → ℕ × Text
  | lineNo, [] => (lineNo, [])
  | lineNo, c :: rest =>
    if c.isDigit then
      let lineNo := lineNo * 10 + (c.toNat - 48)
      if 63999 < lineNo then (lineNo, c :: rest) else lineNumber lineNo rest
    else (lineNo, c :: rest)

/-- What `tokenize` keeps from line to line. -/
structure Lines where
  errors : List Text
  body : List Byte
  lastLineNo : ℤ
  srcLine : ℕ

namespace Lines

def error (s : Lines) (fileName msg : Text) : Lines :=
  { s with errors := s.errors ++
      [fileName ++ text ":" ++ text (toString s.srcLine) ++ text ": error: " ++ msg] }

/-- Link, line number, tokens and terminator; the link is filled in at the end. -/
def addLine (s : Lines) (start : BitVec 16) (lineNo : ℕ) (out : List Byte) : Lines :=
  let lineStart := s.body.length
  let number : List Byte :=
    [BitVec.ofNat 8 (lineNo &&& 0xFF), BitVec.ofNat 8 ((lineNo >>> 8) &&& 0xFF)]
  let body := s.body ++ ([0, 0] ++ number ++ out ++ [0])
  let next := start + BitVec.ofNat 16 body.length
  { s with body := (body.set lineStart (next.setWidth 8)).set (lineStart + 1) ((next >>> 8).setWidth 8) }

def line (table : Tokens) (start : BitVec 16) (fileName : Text) (s : Lines) (line : Text) : Lines :=
  let s := { s with srcLine := s.srcLine + 1 }
  match (withoutReturn line).dropWhile isBlank with
  | [] => s
  | c :: rest =>
    if c = ';' ∨ c = '#' then s
    else if !c.isDigit then s.error fileName (text "expected a line number")
    else
      let (lineNo, rest) := lineNumber 0 (c :: rest)
      if 63999 < lineNo then s.error fileName (text "line number above 63999")
      else if lineNo ≤ s.lastLineNo then
        s.error fileName (text "line number " ++ text (toString lineNo) ++ text " does not follow " ++
          text (toString s.lastLineNo))
      else
        let s := { s with lastLineNo := lineNo }
        match crunch table 0 ⟨false, false, false⟩ (rest.dropWhile isBlank) with
        | .error msg => s.error fileName msg
        | .ok out =>
          if 250 < out.length then
            s.error fileName (text "line too long when tokenised (" ++ text (toString out.length) ++
              text " bytes)")
          else s.addLine start lineNo out

end Lines

/-- No program if there were errors. -/
structure Result where
  prg : List Byte
  errors : List Text

def tokenize (text : Text) (dialect : Dialect) (start : BitVec 16) (fileName : Text) : Result :=
  let s := (getlines text).foldl (Lines.line (table dialect) start fileName) ⟨[], [], -1, 0⟩
  if s.errors ≠ [] then ⟨[], s.errors⟩
  else ⟨[start.setWidth 8, (start >>> 8).setWidth 8] ++ (s.body ++ [0, 0]), s.errors⟩

end Mmemu.Source.BasicTokenizer
