import HttpDispatch.Json.Cursor

/-!
# Records straight from JSON text

A record with a fixed set of fields is read without building a value first. Fields may stand in an
object in any order, each at most once, or in a list in their order; fields that are left out stay
as they are, and members of other names are skipped whatever they hold (`skipValue`).
-/

namespace HttpDispatch.Json

/-! ### Skipping -/

/-- Skips the digits after the point, which is next, and what follows; `rest` goes on after
them. -/
def skipFraction (rest : Reader Unit) : Reader Unit := do
  skip
  if (← skipDigits) = 0 then failNext .invalidNumber else rest

/-- Skips an exponent, the letter being next. -/
def skipExponent : Reader Unit := do
  skip
  let sign ← peek
  if sign = some 0x2B || sign = some 0x2D then skip
  match ← next with
  | none => failHere .invalidNumber
  | some b => if isDigitByte b then let _ ← skipDigits else failHere .invalidNumber

/-- Skips an exponent if there is one. -/
def skipScale : Reader Unit := do
  if ← exponentNext then skipExponent

/-- Skips a number after its sign. -/
def skipNumber : Reader Unit := do
  match ← next with
  | none => failHere .invalidNumber
  | some b =>
    if b = 0x30 then
      if ← digitNext then failNext .invalidNumber
    else if isDigitByte b then let _ ← skipDigits
    else failHere .invalidNumber
    match ← peek with
    | some 0x2E => skipFraction skipScale
    | _ => skipScale

/-- Skips a string after its opening quote; the argument bounds the steps. -/
def skipTextFrom : Bytes → Reader Unit
  | [] => failHere .endInString
  | _ :: fuel => do
    match ← peek with
    | none => failHere .endInString
    | some b =>
      if b < 0x20 then failHere .controlCharacter
      else
        skip
        if b = 0x22 then return ()
        else if b = 0x5C then
          match ← next with
          | none => failHere .endInString
          | some e =>
            if e = 0x75 then let _ ← readHex
            else if (shortEscape? e).isNone then failHere .invalidEscape
            skipTextFrom fuel
        else skipTextFrom fuel

/-- Skips a string after its opening quote. -/
def skipText : Reader Unit := do skipTextFrom (← fuel)

/-- After a comma in an object that is skipped there is a member's name. -/
def nameFollows : Reader Unit := do
  match ← peekToken with
  | none => failNext .endInObject
  | some 0x22 => pure ()
  | some _ => failNext .keyNotText

/-- Skips a value; the argument bounds how deep it is. -/
def skipValueFrom : Bytes → Reader Unit
  | [] => failNext .endInValue
  | _ :: fuel => do
    match ← peekToken with
    | none => failNext .endInValue
    | some 0x6E =>
      skip
      expectWord [0x75, 0x6C, 0x6C]
    | some 0x74 =>
      skip
      expectWord [0x72, 0x75, 0x65]
    | some 0x66 =>
      skip
      expectWord [0x61, 0x6C, 0x73, 0x65]
    | some 0x2D =>
      skip
      skipNumber
    | some 0x22 =>
      skip
      skipText
    | some 0x5B =>
      skip
      foldItems (fun _ => skipValueFrom fuel) (pure ()) ()
    | some 0x7B =>
      skip
      let member (_ _ : Unit) : Reader Unit := do
        expectColon
        skipValueFrom fuel
      foldMembers skipText member nameFollows ()
    | some b => if isDigitByte b then skipNumber else failNext .expectedValue

/-- Skips a value. -/
def skipValue : Reader Unit := do skipValueFrom (← fuel)

/-! ### What was found instead -/

/-- Finds out what stands where something else is asked for; lists and objects are not read. -/
def readFound : Reader Found := do
  match ← peek with
  | some 0x6E =>
    skip
    expectWord [0x75, 0x6C, 0x6C]
    return .null
  | some 0x74 =>
    skip
    expectWord [0x72, 0x75, 0x65]
    return .flag true
  | some 0x66 =>
    skip
    expectWord [0x61, 0x6C, 0x73, 0x65]
    return .flag false
  | some 0x2D =>
    skip
    return .number (← readNumber true)
  | some 0x22 =>
    skip
    return .text (← readText)
  | some 0x5B => return .list
  | some 0x7B => return .object
  | some b => if isDigitByte b then return .number (← readNumber false) else failNext .expectedValue
  | none => failNext .expectedValue

variable {α ρ : Type}

/-- A fault where something is of another type than asked for. -/
def failFound (expected : String) : Reader α := do
  failHere (.mismatch (.wrongType (← readFound) expected))

/-- The next byte after blanks, where a value has to be. -/
def peekValue : Reader UInt8 := do
  match ← peekToken with
  | none => failNext .endInValue
  | some b => return b

/-! ### Values of fields -/

/-- Reads a flag. -/
def readFlag : Reader Bool := do
  match ← peekValue with
  | 0x74 =>
    skip
    expectWord [0x72, 0x75, 0x65]
    return true
  | 0x66 =>
    skip
    expectWord [0x61, 0x6C, 0x73, 0x65]
    return false
  | _ => failFound "a boolean"

/-- Reads a text, or null for none. -/
def readOptionalText : Reader (Option String) := do
  match ← peekValue with
  | 0x6E =>
    skip
    expectWord [0x75, 0x6C, 0x6C]
    return none
  | 0x22 =>
    skip
    return some (← readText)
  | _ => failFound "a string"

/-- Takes a number for a natural one. -/
def requireNatural (expected : String) (n : Number) : Reader Nat :=
  match n with
  | .integer i =>
    if 0 ≤ i then return i.toNat
    else failHere (.mismatch (.wrongValue (.number n) expected))
  | .real _ => failHere (.mismatch (.wrongType (.number n) expected))

/-- Reads a natural number of at most 64 bits. -/
def readNatural (expected : String) : Reader Nat := do
  let b ← peekValue
  if b = 0x2D then
    skip
    requireNatural expected (← readNumber true)
  else if isDigitByte b then requireNatural expected (← readNumber false)
  else failFound expected

/-! ### Records -/

/-- A field of a record: its name, and how its value is read into the record. -/
structure RecordField (ρ : Type) where
  name : String
  read : ρ → Reader ρ

/-- The place of a fault with an object's member, whose name has been read: behind the brace if
that is all that follows. -/
def failMember (cause : Cause) : Reader α := do
  if (← peekToken) = some 0x7D then skip
  failHere cause

/-- Reads a member of an object into a record, of which the named fields have been read. -/
def readMember (fields : List (RecordField ρ)) (name : String) (acc : ρ × List String) :
    Reader (ρ × List String) := do
  match fields.find? fun f => f.name = name with
  | none =>
    expectColon
    skipValue
    return acc
  | some f =>
    if acc.2.contains name then failMember (.mismatch (.duplicateField name))
    else
      expectColon
      return (← f.read acc.1, name :: acc.2)

/-- Reads the end of a list that has an item for every field. -/
def readListEnd : Reader Unit := do
  match ← peekToken with
  | none => failNext .endInList
  | some 0x5D => skip
  | some 0x2C =>
    skip
    if (← peekToken) = some 0x5D then failNext .trailingComma else failNext .trailingText
  | some _ => failNext .trailingText

/-- Reads the items of a list into fields, in their order. -/
def readListed : List (RecordField ρ) → Bool → ρ → Reader ρ
  | [], _, acc => do
    readListEnd
    return acc
  | f :: rest, first, acc => do
    match ← peekToken with
    | none => failNext .endInList
    | some 0x5D =>
      skip
      return acc
    | some b =>
      if first then readListed rest false (← f.read acc)
      else if b = 0x2C then
        skip
        itemFollows
        readListed rest false (← f.read acc)
      else failNext .expectedListEnd

/-- Reads a record whose fields are as in `start` unless they are given. -/
def readRecord (expected : String) (fields : List (RecordField ρ)) (start : ρ) : Reader ρ := do
  match ← peekValue with
  | 0x5B =>
    skip
    readListed fields true start
  | 0x7B =>
    skip
    return (← foldMembers readText (readMember fields) memberFollows (start, [])).1
  | _ => failFound expected

end HttpDispatch.Json
