import HttpDispatch.Text.Utf8

/-!
# Percent encoding

`unescape` turns every percent sign followed by two hexadecimal digits into the byte they name and
leaves all else alone; `decode` does so on text and fails exactly when the resulting bytes are not
UTF-8. `encode` is the writer: every byte but the unreserved ones becomes a percent escape.
-/

namespace HttpDispatch.Percent

/-- The value of a hexadecimal digit. -/
def digit? (b : UInt8) : Option UInt8 :=
  if 0x30 ≤ b && b ≤ 0x39 then some (b - 0x30)
  else if 0x41 ≤ b && b ≤ 0x46 then some (b - 0x41 + 10)
  else if 0x61 ≤ b && b ≤ 0x66 then some (b - 0x61 + 10)
  else none

/-- The byte that two hexadecimal digits name. -/
def pair? (a b : UInt8) : Option UInt8 :=
  match digit? a, digit? b with
  | some x, some y => some (x * 16 + y)
  | _, _ => none

/-- The bytes with every complete escape replaced by the byte it names. -/
def unescape : Bytes → Bytes
  | [] => []
  | c :: r =>
    if c = 0x25 then
      match r with
      | a :: b :: r2 =>
        match pair? a b with
        | some x => x :: unescape r2
        | none => c :: unescape (a :: b :: r2)
      | r => c :: unescape r
    else c :: unescape r

/-- The text with its escapes decoded, unless they do not make up UTF-8. -/
def decode (s : String) : Option String := Utf8.decode? (unescape (Utf8.encode s))

/-- The text with its escapes decoded, or the text itself where that is impossible. -/
def decodeOrKeep (s : String) : String := (decode s).getD s

/-- The bytes that are written as themselves: ASCII letters, digits and four marks. -/
def isUnreserved (b : UInt8) : Bool :=
  (0x30 ≤ b && b ≤ 0x39) || (0x41 ≤ b && b ≤ 0x5A) || (0x61 ≤ b && b ≤ 0x7A) ||
    b == 0x2D || b == 0x2E || b == 0x5F || b == 0x7E

/-- The hexadecimal digit of a value below sixteen, in upper case. -/
def digit (n : UInt8) : UInt8 := if n < 10 then 0x30 + n else 0x41 + (n - 10)

/-- One byte as it is written. -/
def escape (b : UInt8) : Bytes :=
  if isUnreserved b then [b] else [0x25, digit (b / 16), digit (b % 16)]

/-- The text with every byte escaped that is not unreserved. -/
def encode (s : String) : String :=
  String.ofList (((Utf8.encode s).flatMap escape).map fun b => Char.ofNat b.toNat)

end HttpDispatch.Percent
