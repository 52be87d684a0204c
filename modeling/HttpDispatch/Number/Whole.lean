/-!
# Whole numbers in text

Reading an integer that has to lie in a range. A text has an optional sign, where a minus sign is
read only if the range holds negative numbers, and decimal digits. Digits are read from the left,
and the first thing that goes wrong is the fault: a character that is no digit, or a value that
leaves the range.
-/

namespace HttpDispatch

/-- Why a text is not a whole number in a range. -/
inductive WholeFault where
  | empty
  | invalidDigit
  | tooLarge
  | tooSmall
  deriving DecidableEq, Repr

/-- The wording of a fault. -/
def WholeFault.message : WholeFault → String
  | .empty => "cannot parse integer from empty string"
  | .invalidDigit => "invalid digit found in string"
  | .tooLarge => "number too large to fit in target type"
  | .tooSmall => "number too small to fit in target type"

namespace Whole

/-- The value of a decimal digit. -/
def digit? (c : Char) : Option Nat := if c.isDigit then some (c.toNat - 48) else none

/-- The magnitude of the digits after a prefix of value `acc`, at most `limit`. -/
def magnitude (limit : Nat) (excess : WholeFault) : List Char → Nat → Except WholeFault Nat
  | [], acc => .ok acc
  | c :: r, acc =>
    match digit? c with
    | none => .error .invalidDigit
    | some d =>
      if 10 * acc + d ≤ limit then magnitude limit excess r (10 * acc + d) else .error excess

/-- The digits of a number, at least one. -/
def digits (limit : Nat) (excess : WholeFault) : List Char → Except WholeFault Nat
  | [] => .error .invalidDigit
  | l => magnitude limit excess l 0

/-- The number between `lo` and `hi` that the characters denote. -/
def readChars (lo hi : Int) : List Char → Except WholeFault Int
  | [] => .error .empty
  | '+' :: r => (digits hi.toNat .tooLarge r).map Int.ofNat
  | '-' :: r =>
    if lo < 0 then (digits lo.natAbs .tooSmall r).map fun n => -Int.ofNat n
    else .error .invalidDigit
  | l => (digits hi.toNat .tooLarge l).map Int.ofNat

/-- The number between `lo` and `hi` that the text denotes. -/
def read (lo hi : Int) (s : String) : Except WholeFault Int := readChars lo hi s.toList

/-- The largest size of anything in memory. -/
def maxSize : Nat := 0xFFFFFFFFFFFFFFFF

/-- The size that the text denotes, if it denotes one. -/
def readSize? (s : String) : Option Nat := (read 0 maxSize s).toOption.map Int.toNat

end Whole

end HttpDispatch
