import HttpDispatch.Json.Value
import HttpDispatch.Number.Shortest
import HttpDispatch.Text.Quoted

/-!
# What can be wrong with JSON

A `Cause` is either a fault of the text or a `Mismatch` between a value and the shape that is asked
for. A fault of a text has a place, the line and the column up to which the text was read; a
mismatch in a value that is already in memory has none.

Numbers are written by `Number.render`: real numbers with the fewest digits that read back,
positionally from 1e-5 up to below 1e16 and otherwise with an exponent.
-/

namespace HttpDispatch.Json

/-! ### The text of a number -/

/-- The digits `d` times ten to the power `e`, always with a point or an exponent. -/
def layout (d : String) (e : Int) : String :=
  let point : Int := d.length + e
  if 0 ≤ e && point ≤ 16 then
    d ++ String.ofList (List.replicate e.toNat '0') ++ ".0"
  else if 0 < point && point ≤ 16 then
    String.ofList (d.toList.take point.toNat) ++ "." ++ String.ofList (d.toList.drop point.toNat)
  else if -5 < point && point ≤ 0 then
    "0." ++ String.ofList (List.replicate (-point).toNat '0') ++ d
  else
    let rest := d.toList.drop 1
    String.ofList (d.toList.take 1) ++ (if rest.isEmpty then "" else "." ++ String.ofList rest) ++
      "e" ++ (if 0 < point - 1 then "+" else "-") ++ toString (point - 1).natAbs

/-- The text of a finite binary number of 64 bits. -/
def renderReal (bits : Nat) : String :=
  let s := Binary.split Binary.double bits
  let body :=
    if s.2 = 0 then "0.0"
    else
      let d := Shortest.digits Binary.double s.2
      layout (toString d.1) d.2
  if s.1 then "-" ++ body else body

/-- The text of a number. -/
def Number.render : Number → String
  | .integer n => toString n
  | .real bits => renderReal bits.toNat

/-! ### Mismatches -/

/-- What stands where something else was asked for. -/
inductive Found where
  | null
  | flag (b : Bool)
  | number (n : Number)
  | text (s : String)
  | list
  | object
  deriving DecidableEq, Repr

/-- The wording of what was found. -/
def Found.message : Found → String
  | .null => "null"
  | .flag b => s!"boolean `{b}`"
  | .number (.integer n) => s!"integer `{n}`"
  | .number (.real bits) => s!"floating point `{renderReal bits.toNat}`"
  | .text s => "string " ++ Text.quoted s
  | .list => "sequence"
  | .object => "map"

/-- What a value is, without its content. -/
def Value.found : Value → Found
  | .null => .null
  | .flag b => .flag b
  | .number n => .number n
  | .text s => .text s
  | .list _ => .list
  | .object _ => .object

/-- How a value fails to have a shape, or what else the reader of a type states about it. -/
inductive Mismatch where
  | wrongType (found : Found) (expected : String)
  | wrongValue (found : Found) (expected : String)
  | wrongLength (size : Nat) (expected : String)
  | missingField (name : String)
  | duplicateField (name : String)
  | stated (text : String)
  deriving DecidableEq, Repr

/-- The wording of a mismatch. -/
def Mismatch.message : Mismatch → String
  | .wrongType found expected => s!"invalid type: {found.message}, expected {expected}"
  | .wrongValue found expected => s!"invalid value: {found.message}, expected {expected}"
  | .wrongLength size expected => s!"invalid length {size}, expected {expected}"
  | .missingField name => s!"missing field `{name}`"
  | .duplicateField name => s!"duplicate field `{name}`"
  | .stated text => text

/-! ### Faults -/

/-- What is wrong. -/
inductive Cause where
  | endInList
  | endInObject
  | endInString
  | endInValue
  | expectedColon
  | expectedListEnd
  | expectedObjectEnd
  | expectedWord
  | expectedValue
  | invalidEscape
  | invalidNumber
  | outOfRange
  | invalidText
  | controlCharacter
  | keyNotText
  | loneSurrogate
  | unpairedSurrogate
  | trailingComma
  | trailingText
  | tooDeep
  | keyNotWritable
  | mismatch (m : Mismatch)
  deriving DecidableEq, Repr

/-- The wording of a cause. -/
def Cause.message : Cause → String
  | .endInList => "EOF while parsing a list"
  | .endInObject => "EOF while parsing an object"
  | .endInString => "EOF while parsing a string"
  | .endInValue => "EOF while parsing a value"
  | .expectedColon => "expected `:`"
  | .expectedListEnd => "expected `,` or `]`"
  | .expectedObjectEnd => "expected `,` or `\x7d`"
  | .expectedWord => "expected ident"
  | .expectedValue => "expected value"
  | .invalidEscape => "invalid escape"
  | .invalidNumber => "invalid number"
  | .outOfRange => "number out of range"
  | .invalidText => "invalid unicode code point"
  | .controlCharacter => "control character (\\u0000-\\u001F) found while parsing a string"
  | .keyNotText => "key must be a string"
  | .loneSurrogate => "lone leading surrogate in hex escape"
  | .unpairedSurrogate => "unexpected end of hex escape"
  | .trailingComma => "trailing comma"
  | .trailingText => "trailing characters"
  | .tooDeep => "recursion limit exceeded"
  | .keyNotWritable => "key must be a string"
  | .mismatch m => m.message

/-- A line, counted from one, and a column in bytes. -/
structure Place where
  line : Nat
  column : Nat
  deriving DecidableEq, Repr

/-- The place after so many bytes of a text. -/
def Place.ofBytes : List UInt8 → Place :=
  List.foldl (fun p b => if b = 0x0A then ⟨p.line + 1, 0⟩ else ⟨p.line, p.column + 1⟩) ⟨1, 0⟩

/-- What is wrong, and where if it is wrong in a text. -/
structure Fault where
  cause : Cause
  place : Option Place
  deriving DecidableEq, Repr

/-- A fault of a value in memory. -/
def Fault.ofMismatch (m : Mismatch) : Fault := ⟨.mismatch m, none⟩

/-- The wording of a fault. -/
def Fault.message (f : Fault) : String :=
  match f.place with
  | none => f.cause.message
  | some p => s!"{f.cause.message} at line {p.line} column {p.column}"

end HttpDispatch.Json
