/-!
# Binary floating-point numbers

Numbers in the two IEEE interchange formats, given by their bit patterns and computed exactly on
natural numbers. `ofRatio` rounds a quotient to the nearest number, ties to the even one;
`value` gives a pattern back as an integer times a power of two. `readChars` reads decimal
notation.
-/

namespace HttpDispatch.Binary

/-- An interchange format: the bits of its significand, hidden bit included, and of its exponent. -/
structure Format where
  precision : Nat
  exponentBits : Nat
  deriving DecidableEq, Repr

/-- The format of 32 bits. -/
def single : Format := ⟨24, 8⟩

/-- The format of 64 bits. -/
def double : Format := ⟨53, 11⟩

namespace Format

variable (f : Format)

/-- The exponent of the last bit of the smallest number is `-f.depth`. -/
def depth : Nat := 1 <<< (f.exponentBits - 1) + f.precision - 3

/-- The pattern of infinity. -/
def infinity : Nat := (1 <<< f.exponentBits - 1) <<< (f.precision - 1)

/-- The pattern of a value that is not a number. -/
def nan : Nat := f.infinity + 1 <<< (f.precision - 2)

/-- The weight of the sign bit. -/
def signBit : Nat := 1 <<< (f.exponentBits + f.precision - 1)

end Format

variable (f : Format)

/-- The sign of a pattern and the pattern without it. -/
def split (bits : Nat) : Bool × Nat := (f.signBit ≤ bits, bits % f.signBit)

/-- The pattern is not a number. -/
def isNaN (bits : Nat) : Bool := f.infinity < (split f bits).2

/-- The pattern with a sign. -/
def signed (negative : Bool) (bits : Nat) : Nat := if negative then f.signBit + bits else bits

/-- The significand `m` and the exponent `e` of a finite pattern without sign: its value is
`m * 2 ^ (e - f.depth)`. -/
def value (bits : Nat) : Nat × Nat :=
  let unit := 1 <<< (f.precision - 1)
  if bits < unit then (bits, 0) else (unit + bits % unit, bits / unit - 1)

/-- The nearest natural number to `num / den`, ties to the even one. -/
def roundQuotient (num den : Nat) : Nat :=
  let q := num / den
  let r := num % den
  if 2 * r < den then q else if den < 2 * r then q + 1 else q + q % 2

/-- The exponent at which `num / den` has the significand that the format keeps. -/
def exponentOf (num den : Nat) : Nat :=
  let high := num.log2 + f.depth + 1 - (den.log2 + f.precision)
  let scaled (e : Nat) := num <<< f.depth / den <<< e
  if high = 0 then 0
  else if 1 <<< f.precision ≤ scaled high then high + 1
  else if scaled high < 1 <<< (f.precision - 1) then high - 1
  else high

/-- The pattern nearest to `num / den`, infinity if that is too large. -/
def ofRatio (num den : Nat) : Nat :=
  if num = 0 then 0
  else
    let e := exponentOf f num den
    let bits := e <<< (f.precision - 1) + roundQuotient (num <<< f.depth) (den <<< e)
    if bits < f.infinity then bits else f.infinity

/-- The pattern nearest to a natural number. -/
def ofNat (n : Nat) : Nat := ofRatio f n 1

/-- The pattern nearest to the product of two finite patterns without sign. -/
def mul (a b : Nat) : Nat :=
  let x := value f a
  let y := value f b
  ofRatio f ((x.1 * y.1) <<< (x.2 + y.2)) (1 <<< (2 * f.depth))

/-- The pattern nearest to the quotient of two finite patterns without sign, the second not zero. -/
def div (a b : Nat) : Nat :=
  let x := value f a
  let y := value f b
  ofRatio f (x.1 <<< x.2) (y.1 <<< y.2)

/-- The pattern nearest to `digits * 10 ^ exponent`, where `digits` has `count` decimal digits.
Far outside the format's range the answer is known without the power. -/
def ofDecimal (digits count : Nat) (exponent : Int) : Nat :=
  if digits = 0 then 0
  else if 400 < exponent + count then f.infinity
  else if exponent + count < -400 then 0
  else if 0 ≤ exponent then ofRatio f (digits * Nat.pow 10 exponent.toNat) 1
  else ofRatio f digits (Nat.pow 10 (-exponent).toNat)

/-- Order key of a pattern that is a number: its magnitude, with its sign. -/
def key (bits : Nat) : Int :=
  let s := split f bits
  if s.1 then -Int.ofNat s.2 else Int.ofNat s.2

/-- Both are numbers and the first is below the second. -/
def lt (a b : Nat) : Bool := !isNaN f a && !isNaN f b && key f a < key f b

/-! ### Decimal notation -/

/-- Why a text is no floating-point number. -/
inductive Fault where
  | empty
  | invalid
  deriving DecidableEq, Repr

/-- The wording of a fault. -/
def Fault.message : Fault → String
  | .empty => "cannot parse float from empty string"
  | .invalid => "invalid float literal"

/-- The value of decimal digits. -/
def digitsValue (l : List Char) : Nat := l.foldl (fun n c => 10 * n + (c.toNat - 48)) 0

/-- How many digits of a number matter one by one. The numbers halfway between two neighbours of a
format have fewer. -/
def maxDigits : Nat := 800

/-- The digits from the first that is not zero, and how many have been cut off behind them. Beyond
`maxDigits` all that matters is whether every digit is zero, which one more digit tells. -/
def significant (digits : List Char) : List Char × Nat :=
  let kept := digits.dropWhile (· == '0')
  match kept.drop maxDigits with
  | [] => (kept, 0)
  | c :: r =>
    (kept.take maxDigits ++ [if c == '0' && r.all (· == '0') then '0' else '1'], r.length)

/-- The value of the digits of an exponent, which does not grow any more once it is far beyond every
format. -/
def exponentValue (l : List Char) : Nat :=
  l.foldl (fun n c => if n < 0x10000 then 10 * n + (c.toNat - 48) else n) 0

/-- The exponent written after the letter: an optional sign and at least one digit. -/
def exponent? (l : List Char) : Option Int :=
  let read (l : List Char) : Option Int :=
    if l.isEmpty || !l.all Char.isDigit then none else some (exponentValue l)
  match l with
  | '+' :: r => read r
  | '-' :: r => (read r).map (- ·)
  | l => read l

/-- The pattern of a number without sign in decimal notation: digits, a point with more digits, an
exponent; the digits on both sides of the point may be missing, but not both. -/
def decimal? (l : List Char) : Option Nat :=
  let whole := l.takeWhile Char.isDigit
  let rest := l.dropWhile Char.isDigit
  let fraction := match rest with
    | '.' :: r => r.takeWhile Char.isDigit
    | _ => []
  let rest := match rest with
    | '.' :: r => r.dropWhile Char.isDigit
    | r => r
  let digits := whole ++ fraction
  let number (e : Int) : Nat :=
    let kept := significant digits
    ofDecimal f (digitsValue kept.1) kept.1.length (e - fraction.length + kept.2)
  if digits.isEmpty then none
  else match rest with
    | [] => some (number 0)
    | c :: r => if c == 'e' || c == 'E' then (exponent? r).map number else none

/-- The pattern of a number without sign: infinity, not a number, or decimal notation. -/
def unsigned? (l : List Char) : Option Nat :=
  let name := String.ofList (l.map Char.toLower)
  if name = "inf" || name = "infinity" then some f.infinity
  else if name = "nan" then some f.nan
  else decimal? f l

/-- The pattern that the characters denote. -/
def readChars : List Char → Except Fault Nat
  | [] => .error .empty
  | '+' :: r => ((unsigned? f r).map .ok).getD (.error .invalid)
  | '-' :: r => ((unsigned? f r).map fun b => .ok (signed f true b)).getD (.error .invalid)
  | l => ((unsigned? f l).map .ok).getD (.error .invalid)

/-- The pattern that the text denotes. -/
def read (s : String) : Except Fault Nat := readChars f s.toList

end HttpDispatch.Binary
