import HttpDispatch.Text.Printable

/-!
# Quoted text

Text shown to a reader stands between double quotes. The quote, the backslash, tab, line feed,
carriage return and NUL have short escapes; other characters that would not show as themselves
(`isPlain`) are written by their code point in hexadecimal, between braces.
-/

namespace HttpDispatch.Text

/-- The digits of `n` in base sixteen, in lower case. -/
def hex (n : Nat) : String := String.ofList (Nat.toDigits 16 n)

/-- How one character stands in quoted text. -/
def escaped (c : Char) : String :=
  match c with
  | '"' => "\\\""
  | '\\' => "\\\\"
  | '\t' => "\\t"
  | '\n' => "\\n"
  | '\r' => "\\r"
  | '\x00' => "\\0"
  | c => if isPlain c then c.toString else "\\u\x7b" ++ hex c.toNat ++ "\x7d"

/-- The text between double quotes, escaped. -/
def quoted (s : String) : String := "\"" ++ String.join (s.toList.map escaped) ++ "\""

/-- An optional text the way a reader is shown it. -/
def quotedOption : Option String → String
  | none => "None"
  | some s => "Some(" ++ quoted s ++ ")"

end HttpDispatch.Text
