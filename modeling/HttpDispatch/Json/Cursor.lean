import HttpDispatch.Json.Fault
import HttpDispatch.Text.Utf8

/-!
# Reading JSON text byte by byte

A `Reader` consumes bytes from the front of what is left of a text and stops at the first fault. A
fault is located by the number of bytes up to it: `failHere` counts the bytes consumed so far,
`failNext` also the byte that comes next, if there is one. `Reader.run` turns that number into a
line and a column.

This module holds the steps that every reader shares and the readers of numbers and strings.
-/

namespace HttpDispatch.Json

/-- What is left of a text, and how many bytes came before. -/
structure Cursor where
  index : Nat
  rest : Bytes
  deriving Repr

/-- A fault and the number of bytes up to it. -/
structure Stop where
  cause : Cause
  index : Nat
  deriving Repr

/-- Something that is read from the front of a text. -/
abbrev Reader := StateT Cursor (Except Stop)

/-- Reads from the beginning of a text. -/
def Reader.run {α : Type} (r : Reader α) (bytes : Bytes) : Except Fault α :=
  match StateT.run r ⟨0, bytes⟩ with
  | .ok (a, _) => .ok a
  | .error s => .error ⟨s.cause, some (Place.ofBytes (bytes.take s.index))⟩

variable {α : Type}

/-- A fault after the bytes consumed so far. -/
def failHere (cause : Cause) : Reader α := do throw ⟨cause, (← get).index⟩

/-- A fault at the next byte. -/
def failNext (cause : Cause) : Reader α := do
  let c ← get
  throw ⟨cause, if c.rest.isEmpty then c.index else c.index + 1⟩

/-- The next byte, which stays. -/
def peek : Reader (Option UInt8) := do return (← get).rest.head?

/-- Consumes the next byte, if there is one. -/
def skip : Reader Unit := modify fun c =>
  match c.rest with
  | [] => c
  | _ :: r => ⟨c.index + 1, r⟩

/-- Consumes the next byte and gives it. -/
def next : Reader (Option UInt8) := do
  let b ← peek
  skip
  return b

/-- A list that is longer than what is left. A loop of which every step but the last consumes a
byte may take an item of it for each step. -/
def fuel : Reader Bytes := do return 0 :: (← get).rest

/-- A blank between tokens. -/
def isBlankByte (b : UInt8) : Bool := b == 0x20 || b == 0x0A || b == 0x09 || b == 0x0D

/-- Consumes blanks. -/
def skipBlanks : Reader Unit := modify fun c =>
  ⟨c.index + (c.rest.takeWhile isBlankByte).length, c.rest.dropWhile isBlankByte⟩

/-- The next byte after blanks, which stays. -/
def peekToken : Reader (Option UInt8) := do
  skipBlanks
  peek

/-- Consumes the remaining letters of a word. -/
def expectWord : List UInt8 → Reader Unit
  | [] => pure ()
  | b :: r => do
    match ← next with
    | none => failHere .endInValue
    | some c => if c = b then expectWord r else failHere .expectedWord

/-! ### Numbers -/

/-- A decimal digit. -/
def isDigitByte (b : UInt8) : Bool := 0x30 ≤ b && b ≤ 0x39

/-- Appends digits to the number `n` while it stays at most `limit`: the number, how many digits
were appended, and what is left. -/
def appendDigits (limit : Nat) : Bytes → Nat → Nat → Nat × Nat × Bytes
  | [], n, count => (n, count, [])
  | b :: r, n, count =>
    if isDigitByte b && 10 * n + (b.toNat - 48) ≤ limit then
      appendDigits limit r (10 * n + (b.toNat - 48)) (count + 1)
    else (n, count, b :: r)

/-- Consumes digits, appending them to `n` while it stays at most `limit`. -/
def readDigits (limit n : Nat) : Reader (Nat × Nat) := do
  let c ← get
  let r := appendDigits limit c.rest n 0
  set (Cursor.mk (c.index + r.2.1) r.2.2)
  return (r.1, r.2.1)

/-- Consumes digits and counts them. -/
def skipDigits : Reader Nat := do
  let c ← get
  let n := (c.rest.takeWhile isDigitByte).length
  set (Cursor.mk (c.index + n) (c.rest.drop n))
  return n

/-- The next byte is a digit. -/
def digitNext : Reader Bool := do return (← peek).any isDigitByte

/-- The next byte begins an exponent. -/
def exponentNext : Reader Bool := do return (← peek).any fun b => b == 0x65 || b == 0x45

/-- The largest significand that is kept exactly. -/
def maxSignificand : Nat := 0xFFFFFFFFFFFFFFFF

/-- The largest power of ten of the format. -/
def topPower : Nat := 308

/-- The pattern of `10 ^ k`. -/
def tenPower (k : Nat) : Nat := Binary.ofDecimal Binary.double 1 1 k

/-- Divides by the largest power of ten until the exponent is in reach, at most `fuel` times; a
number that has become zero stays zero. -/
def approach : Nat → Nat → Int → Nat × Int
  | 0, bits, e => (bits, e)
  | fuel + 1, bits, e =>
    if -(topPower : Int) ≤ e then (bits, e)
    else if bits = 0 then (0, 0)
    else approach fuel (Binary.div Binary.double bits (tenPower topPower)) (e + topPower)

/-- The pattern of a significand times a power of ten: one multiplication or division of rounded
numbers; none if the result is too large. -/
def realOf (significand : Nat) (exponent : Int) : Option Nat :=
  let start := Binary.ofNat Binary.double significand
  if 0 ≤ exponent then
    if start = 0 then some 0
    else if exponent ≤ topPower then
      let bits := Binary.mul Binary.double start (tenPower exponent.toNat)
      if bits < Binary.double.infinity then some bits else none
    else none
  else
    let r := approach 8 start exponent
    some (Binary.div Binary.double r.1 (tenPower (-r.2).toNat))

/-- A real number with a sign. -/
def realNumber (negative : Bool) (bits : Nat) : Number :=
  .real (UInt64.ofNat (Binary.signed Binary.double negative bits))

/-- The number with a significand and an exponent. -/
def finishReal (negative : Bool) (significand : Nat) (exponent : Int) : Reader Number :=
  match realOf significand exponent with
  | some bits => pure (realNumber negative bits)
  | none => failHere .outOfRange

/-- The largest exponent that is kept exactly. -/
def maxExponent : Nat := 0x7FFFFFFF

/-- The exponent, or the bound that it is beyond. -/
def clampExponent (e : Int) : Int := max (-(maxExponent + 1)) (min maxExponent e)

/-- Reads an exponent, the letter being next, and finishes the number. -/
def readExponent (negative : Bool) (significand : Nat) (base : Int) : Reader Number := do
  skip
  let sign ← peek
  if sign = some 0x2B || sign = some 0x2D then skip
  let down := sign = some 0x2D
  match ← next with
  | none => failHere .endInValue
  | some b =>
    if isDigitByte b then
      let (e, _) ← readDigits maxExponent (b.toNat - 48)
      if ← digitNext then
        skip
        if significand ≠ 0 && !down then failHere .outOfRange
        else
          let _ ← skipDigits
          return realNumber negative 0
      else
        finishReal negative significand (clampExponent (if down then base - e else base + e))
    else failHere .invalidNumber

/-- Goes on after the digits of a number. -/
def readTail (negative : Bool) (significand : Nat) (base : Int) : Reader Number := do
  if ← exponentNext then readExponent negative significand base
  else finishReal negative significand base

/-- Reads the digits after the point, which is next. -/
def readFraction (negative : Bool) (significand : Nat) (base : Int) : Reader Number := do
  skip
  let (n, count) ← readDigits maxSignificand significand
  if ← digitNext then
    let _ ← skipDigits
    readTail negative n (base - count)
  else if count = 0 then
    match ← peek with
    | some _ => failNext .invalidNumber
    | none => failNext .endInValue
  else readTail negative n (base - count)

/-- The largest magnitude of a negative integer. -/
def maxNegative : Nat := 0x8000000000000000

/-- Goes on after the integer part of a number. -/
def readRest (negative : Bool) (significand : Nat) : Reader Number := do
  match ← peek with
  | some 0x2E => readFraction negative significand 0
  | some 0x65 => readExponent negative significand 0
  | some 0x45 => readExponent negative significand 0
  | _ =>
    if negative then
      if significand = 0 || maxNegative < significand then
        return realNumber true (Binary.ofNat Binary.double significand)
      else return .integer (-significand)
    else return .integer significand

/-- Reads a number after its sign. A leading zero stands alone; an integer that does not fit is
continued as a real number whose further digits only count. -/
def readNumber (negative : Bool) : Reader Number := do
  match ← next with
  | none => failHere .endInValue
  | some b =>
    if b = 0x30 then
      if ← digitNext then failNext .invalidNumber else readRest negative 0
    else if isDigitByte b then
      let (n, _) ← readDigits maxSignificand (b.toNat - 48)
      if ← digitNext then
        let extra ← skipDigits
        match ← peek with
        | some 0x2E => readFraction negative n extra
        | _ => readTail negative n extra
      else readRest negative n
    else failHere .invalidNumber

/-! ### Strings -/

/-- The value of a hexadecimal digit. -/
def hexDigit? (b : UInt8) : Option Nat :=
  if 0x30 ≤ b && b ≤ 0x39 then some (b.toNat - 0x30)
  else if 0x41 ≤ b && b ≤ 0x46 then some (b.toNat - 0x37)
  else if 0x61 ≤ b && b ≤ 0x66 then some (b.toNat - 0x57)
  else none

/-- The value of hexadecimal digits. -/
def hexValue? : List UInt8 → Option Nat
  | l => l.foldl (fun n b => n.bind fun n => (hexDigit? b).map fun d => 16 * n + d) (some 0)

/-- Reads four hexadecimal digits. -/
def readHex : Reader Nat := do
  let c ← get
  let digits := c.rest.take 4
  if digits.length < 4 then
    throw ⟨.endInString, c.index + digits.length⟩
  else
    set (Cursor.mk (c.index + 4) (c.rest.drop 4))
    match hexValue? digits with
    | some n => return n
    | none => failHere .invalidEscape

/-- Consumes the byte that has to begin or name the second half of a pair. -/
def expectHalf (b : UInt8) : Reader Unit := do
  match ← peek with
  | none => failHere .endInString
  | some c =>
    skip
    if c ≠ b then failHere .unpairedSurrogate

/-- Reads the code point of an escape, after its letter; two escapes may make up one. -/
def readCodePoint : Reader Nat := do
  let n ← readHex
  if 0xDC00 ≤ n && n ≤ 0xDFFF then failHere .loneSurrogate
  else if n < 0xD800 || 0xDBFF < n then return n
  else
    expectHalf 0x5C
    expectHalf 0x75
    let m ← readHex
    if m < 0xDC00 || 0xDFFF < m then failHere .loneSurrogate
    else return (n - 0xD800) * 0x400 + (m - 0xDC00) + 0x10000

/-- The byte that a short escape stands for. -/
def shortEscape? (b : UInt8) : Option UInt8 :=
  if b = 0x22 || b = 0x5C || b = 0x2F then some b
  else if b = 0x62 then some 0x08
  else if b = 0x66 then some 0x0C
  else if b = 0x6E then some 0x0A
  else if b = 0x72 then some 0x0D
  else if b = 0x74 then some 0x09
  else none

/-- The bytes that an escape stands for, the backslash being consumed. -/
def readEscape : Reader Bytes := do
  match ← next with
  | none => failHere .endInString
  | some b =>
    if b = 0x75 then return String.utf8EncodeChar (Char.ofNat (← readCodePoint))
    else
      match shortEscape? b with
      | some x => return [x]
      | none => failHere .invalidEscape

/-- The text of the bytes that a string stands for, the string being consumed. A fault of the text
is counted back from the end of the string, in these bytes. -/
def finishText (bytes : Bytes) : Reader String := do
  match Utf8.decode bytes with
  | .ok s => return s
  | .error f => throw ⟨.invalidText, (← get).index - bytes.length + f.index⟩

/-- Reads a string after its opening quote, of which the bytes `acc` are read already, last byte
first; the first argument bounds the steps. -/
def readTextFrom : Bytes → Bytes → Reader String
  | [], _ => failHere .endInString
  | _ :: fuel, acc => do
    match ← next with
    | none => failHere .endInString
    | some b =>
      if b = 0x22 then finishText acc.reverse
      else if b = 0x5C then
        let bytes ← readEscape
        readTextFrom fuel (bytes.reverse ++ acc)
      else if b < 0x20 then failHere .controlCharacter
      else readTextFrom fuel (b :: acc)

/-- Reads a string after its opening quote. -/
def readText : Reader String := do readTextFrom (← fuel) []

/-! ### Lists and objects -/

/-- Requires the end of the text after blanks. -/
def expectEnd : Reader Unit := do
  match ← peekToken with
  | none => pure ()
  | some _ => failNext .trailingText

/-- Consumes the colon after a member's name. -/
def expectColon : Reader Unit := do
  match ← peekToken with
  | none => failNext .endInObject
  | some 0x3A => skip
  | some _ => failNext .expectedColon

variable {ρ κ : Type}

/-- Goes on with a list at an item; `afterComma` looks at what follows a comma. -/
def foldItemsFrom (item : ρ → Reader ρ) (afterComma : Reader Unit) : Bytes → ρ → Reader ρ
  | [], _ => failNext .endInList
  | _ :: fuel, acc => do
    let acc ← item acc
    match ← peekToken with
    | none => failNext .endInList
    | some 0x5D =>
      skip
      return acc
    | some 0x2C =>
      skip
      afterComma
      foldItemsFrom item afterComma fuel acc
    | some _ => failNext .expectedListEnd

/-- Reads the items of a list after its bracket. -/
def foldItems (item : ρ → Reader ρ) (afterComma : Reader Unit) (start : ρ) : Reader ρ := do
  match ← peekToken with
  | none => failNext .endInList
  | some 0x5D =>
    skip
    return start
  | some _ => foldItemsFrom item afterComma (← fuel) start

/-- Goes on with an object at the quote of a member's name. -/
def foldMembersFrom (key : Reader κ) (member : κ → ρ → Reader ρ) (afterComma : Reader Unit) :
    Bytes → ρ → Reader ρ
  | [], _ => failNext .endInObject
  | _ :: fuel, acc => do
    skip
    let k ← key
    let acc ← member k acc
    match ← peekToken with
    | none => failNext .endInObject
    | some 0x7D =>
      skip
      return acc
    | some 0x2C =>
      skip
      afterComma
      foldMembersFrom key member afterComma fuel acc
    | some _ => failNext .expectedObjectEnd

/-- Reads the members of an object after its brace. -/
def foldMembers (key : Reader κ) (member : κ → ρ → Reader ρ) (afterComma : Reader Unit)
    (start : ρ) : Reader ρ := do
  match ← peekToken with
  | none => failNext .endInObject
  | some 0x7D =>
    skip
    return start
  | some 0x22 => foldMembersFrom key member afterComma (← fuel) start
  | some _ => failNext .keyNotText

/-- After a comma in a list there is an item. -/
def itemFollows : Reader Unit := do
  match ← peekToken with
  | none => failNext .endInValue
  | some 0x5D => failNext .trailingComma
  | some _ => pure ()

/-- After a comma in an object there is a member's name. -/
def memberFollows : Reader Unit := do
  match ← peekToken with
  | none => failNext .endInValue
  | some 0x22 => pure ()
  | some 0x7D => failNext .trailingComma
  | some _ => failNext .keyNotText

end HttpDispatch.Json
