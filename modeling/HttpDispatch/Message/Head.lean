import HttpDispatch.Text.Utf8

/-!
# Message heads

The grammar of a request head and of the header fields of a part, read from bytes. A `Scan` reads
from the front of what is left and either fails (`HeadFault`) or finds that the bytes end too early
(`Scan.Stop.cut`). Lines end with CRLF or LF; empty lines before a request are skipped; a line that
begins with a blank continues nothing and is refused.

`Head.read` gives the head of a request together with its size, which is never zero.
-/

namespace HttpDispatch

/-- What can be wrong with a head. -/
inductive HeadFault where
  | token
  | version
  | newLine
  | fieldName
  | fieldValue
  | tooManyFields
  deriving DecidableEq, Repr

/-- The wording of a fault. -/
def HeadFault.message : HeadFault → String
  | .token => "invalid token"
  | .version => "invalid HTTP version"
  | .newLine => "invalid new line"
  | .fieldName => "invalid header name"
  | .fieldValue => "invalid header value"
  | .tooManyFields => "too many headers"

/-- Why a scan ends: the bytes end too early, or they are wrong. -/
inductive Scan.Stop where
  | cut
  | fault (f : HeadFault)
  deriving DecidableEq, Repr

/-- A reader of the front of a sequence of bytes. -/
abbrev Scan := StateT Bytes (Except Scan.Stop)

namespace Scan

variable {α : Type}

/-- The bytes are wrong. -/
def refuse (f : HeadFault) : Scan α := throw (.fault f)

/-- Consumes a byte. -/
def next : Scan UInt8 := do
  match ← get with
  | [] => throw .cut
  | b :: r =>
    set r
    return b

/-- Consumes a byte that has to be `b`. -/
def expect (b : UInt8) (f : HeadFault) : Scan Unit := do
  if (← next) ≠ b then refuse f

/-- Consumes the bytes at the front that satisfy `p`. -/
def takeWhile (p : UInt8 → Bool) : Scan Bytes := do
  let bytes ← get
  set (bytes.dropWhile p)
  return bytes.takeWhile p

/-! ### Tokens and lines -/

/-- A byte of a token: letters, digits and some marks. -/
def isToken (b : UInt8) : Bool :=
  (0x30 ≤ b && b ≤ 0x39) || (0x41 ≤ b && b ≤ 0x5A) || (0x61 ≤ b && b ≤ 0x7A) ||
    [0x21, 0x23, 0x24, 0x25, 0x26, 0x27, 0x2A, 0x2B, 0x2D, 0x2E, 0x5E, 0x5F, 0x60, 0x7C, 0x7E].contains b

/-- A byte of a request target: neither a blank nor a control. -/
def isTarget (b : UInt8) : Bool := 0x21 ≤ b && b ≠ 0x7F

/-- A byte of a field value: no control but the tab. -/
def isValue (b : UInt8) : Bool := b == 0x09 || (0x20 ≤ b && b ≠ 0x7F)

/-- A blank within a line. -/
def isGap (b : UInt8) : Bool := b == 0x20 || b == 0x09

/-- A text of bytes that are all ASCII. -/
def ascii (bytes : Bytes) : String := String.ofList (bytes.map fun b => Char.ofNat b.toNat)

/-- What is left after empty lines. -/
def afterEmptyLines : Bytes → Except Stop Bytes
  | [] => .error .cut
  | b :: r =>
    if b = 0x0A then afterEmptyLines r
    else if b = 0x0D then
      match r with
      | [] => .error .cut
      | c :: r2 => if c = 0x0A then afterEmptyLines r2 else .error (.fault .newLine)
    else .ok (b :: r)

/-- Consumes empty lines. -/
def skipEmptyLines : Scan Unit := do
  match afterEmptyLines (← get) with
  | .ok r => set r
  | .error s => throw s

/-- Consumes the method and the blank after it. -/
def method : Scan String := do
  let name ← takeWhile isToken
  let b ← next
  if name.isEmpty || b ≠ 0x20 then refuse .token else return ascii name

/-- Consumes the request target and the blank after it. -/
def target : Scan String := do
  let bytes ← takeWhile isTarget
  let b ← next
  if bytes.isEmpty || b ≠ 0x20 then refuse .token
  else
    match Utf8.decode? bytes with
    | some s => return s
    | none => refuse .token

/-- The letters that both versions begin with. -/
def versionStem : Bytes := [0x48, 0x54, 0x54, 0x50, 0x2F, 0x31, 0x2E]

/-- Consumes the version: the number after the point, zero or one. Eight bytes are looked at
together; fewer are compared one by one. -/
def version : Scan Nat := do
  let bytes ← get
  if 8 ≤ bytes.length then
    set (bytes.drop 8)
    if bytes.take 8 = versionStem ++ [0x31] then return 1
    else if bytes.take 8 = versionStem ++ [0x30] then return 0
    else refuse .version
  else if bytes.isPrefixOf versionStem then throw .cut
  else refuse .version

/-- Consumes the end of a line. -/
def lineEnd : Scan Unit := do
  let b ← next
  if b = 0x0D then expect 0x0A .newLine
  else if b ≠ 0x0A then refuse .newLine

/-- The bytes without blanks at their end. -/
def trimEnd (bytes : Bytes) : Bytes := (bytes.reverse.dropWhile isGap).reverse

/-- Consumes the value of a field and the end of its line. -/
def fieldValue : Scan Bytes := do
  let _ ← takeWhile isGap
  let bytes ← takeWhile isValue
  let b ← next
  if b = 0x0D then
    expect 0x0A .fieldValue
    return trimEnd bytes
  else if b = 0x0A then return trimEnd bytes
  else refuse .fieldValue

/-- Consumes one field after the first byte of its name. -/
def field (first : UInt8) : Scan (String × Bytes) := do
  let name ← takeWhile isToken
  if (← next) ≠ 0x3A then refuse .fieldName
  else return (ascii (first :: name), ← fieldValue)

/-- Consumes the first byte of a field's name, or the empty line after the fields. -/
def fieldStart : Scan (Option UInt8) := do
  let b ← next
  if b = 0x0A then return none
  else if b = 0x0D then
    expect 0x0A .newLine
    return none
  else if isToken b then return some b
  else refuse .fieldName

/-- Consumes header fields up to the empty line after them, at most `limit` fields. A field beyond
the limit is refused at its end, so that a fault within it comes first. -/
def fields : Nat → Scan (List (String × Bytes))
  | 0 => do
    match ← fieldStart with
    | none => return []
    | some b =>
      let _ ← field b
      refuse .tooManyFields
  | limit + 1 => do
    match ← fieldStart with
    | none => return []
    | some b => return (← field b) :: (← fields limit)

/-- How many fields a request may have. -/
def maxFields : Nat := 64

/-- Consumes the head of a request. -/
def head : Scan (String × String × Nat × List (String × Bytes)) := do
  skipEmptyLines
  let method ← method
  let target ← target
  let version ← version
  lineEnd
  return (method, target, version, ← fields maxFields)

end Scan

/-- The head of a request. -/
structure Head where
  method : String
  target : String
  version : Nat
  fields : List (String × Bytes)
  size : Nat
  size_pos : 0 < size

/-- Reads the head at the front of the bytes. -/
def Head.read (bytes : Bytes) : Except Scan.Stop Head :=
  match Scan.head.run bytes with
  | .error s => .error s
  | .ok ((method, target, version, fields), rest) =>
    if h : 0 < bytes.length - rest.length then
      .ok ⟨method, target, version, fields, bytes.length - rest.length, h⟩
    else .error .cut

end HttpDispatch
