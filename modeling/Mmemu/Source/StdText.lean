import Mmemu.Source.Assembler6502

/-!
# Numbers and words in text

What the monitors and servers use of the C++ library: `>>`, `std::stoul`, `std::stoi` and
`%X`. An exception is `none`.
-/
namespace Mmemu.Source.StdText
open Mmemu.Library.Numerals
open Mmemu.Source.Assembler6502 (Text hexDigits decimalDigits isspace)

/-- `%0*X`, and wider where the number is. -/
def hex (width n : ℕ) : String :=
  let digits := (Nat.toDigits 16 n).map Char.toUpper
  String.ofList (List.replicate (width - digits.length) '0' ++ digits)

/-- `>>` into a string: the next word, empty at the end, and what is left. -/
def word (ss : Text) : Text × Text :=
  let ss := ss.dropWhile isspace
  (ss.takeWhile (!isspace ·), ss.dropWhile (!isspace ·))

def isxdigit (c : Char) : Bool := c.isDigit || ('A' ≤ c.toUpper && c.toUpper ≤ 'F')

/-- The sign that `strtoul` and `strtol` take, and the text behind it. -/
def signed (text : Text) : Bool × Text :=
  match text.dropWhile isspace with
  | '-' :: rest => (true, rest)
  | '+' :: rest => (false, rest)
  | rest => (false, rest)

/-- In base 16 an `0x` in front of a digit is skipped. -/
def withoutPrefix (text : Text) : Text :=
  match text with
  | '0' :: x :: d :: rest => if (x == 'x' || x == 'X') && isxdigit d then d :: rest else text
  | _ => text

/-- A number read off the front of a text, below 2^64. -/
def stoul {base : ℕ} (digits : Digits Char base) (isDigit : Char → Bool) (skip : Text → Text)
    (text : Text) : Option (BitVec 64) :=
  let (negative, rest) := signed text
  let number := (skip rest).takeWhile isDigit
  if number = [] then none
  else
    let n := digits.value (number.map Char.toUpper)
    if n < 2 ^ 64 then some (if negative then -BitVec.ofNat 64 n else BitVec.ofNat 64 n) else none

def stoul16 : Text → Option (BitVec 64) := stoul hexDigits isxdigit withoutPrefix

def stoul10 : Text → Option (BitVec 64) := stoul decimalDigits Char.isDigit id

/-- `std::stoi` in base 10. -/
def stoi (text : Text) : Option ℤ :=
  let (negative, rest) := signed text
  let number := rest.takeWhile Char.isDigit
  let n : ℤ := if negative then -decimalDigits.value number else decimalDigits.value number
  if number ≠ [] ∧ -2 ^ 31 ≤ n ∧ n < 2 ^ 31 then some n else none

/-- `>>` into a count that is `old`: nothing left keeps it, no number clears it, and one out of
range is cut off. -/
def count (ss : Text) (old : ℤ) : ℤ :=
  if ss.dropWhile isspace = [] then old
  else
    let (negative, rest) := signed ss
    let number := rest.takeWhile Char.isDigit
    let n : ℤ := if negative then -decimalDigits.value number else decimalDigits.value number
    if number = [] then 0 else max (-2 ^ 31) (min n (2 ^ 31 - 1))

end Mmemu.Source.StdText
