import HttpDispatch.Json.Fault

/-!
# Compact JSON text

`Value.render` writes a value without blanks, members in their order. In strings the quote, the
backslash and the controls below U+0020 are escaped, by their short form where there is one.
-/

namespace HttpDispatch.Json

/-- How one character stands in a string. -/
def escaped (c : Char) : String :=
  match c with
  | '"' => "\\\""
  | '\\' => "\\\\"
  | '\n' => "\\n"
  | '\r' => "\\r"
  | '\t' => "\\t"
  | '\x08' => "\\b"
  | '\x0C' => "\\f"
  | c =>
    if c.toNat < 0x20 then
      "\\u00" ++ (if c.toNat < 0x10 then "0" else "") ++ Text.hex c.toNat
    else c.toString

/-- A string as it is written. -/
def renderText (s : String) : String := "\"" ++ String.join (s.toList.map escaped) ++ "\""

mutual

/-- A value as it is written. -/
def Value.render : Value → String
  | .null => "null"
  | .flag b => if b then "true" else "false"
  | .number n => n.render
  | .text s => renderText s
  | .list items => "[" ++ ",".intercalate (renderItems items) ++ "]"
  | .object members => "\x7b" ++ ",".intercalate (renderMembers members) ++ "\x7d"

/-- The items of a list, each as it is written. -/
def renderItems : List Value → List String
  | [] => []
  | v :: r => v.render :: renderItems r

/-- The members of an object, each as it is written. -/
def renderMembers : List (String × Value) → List String
  | [] => []
  | (name, v) :: r => (renderText name ++ ":" ++ v.render) :: renderMembers r

end

end HttpDispatch.Json
