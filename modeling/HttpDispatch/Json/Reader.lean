import HttpDispatch.Json.Cursor

/-!
# JSON values from text

`Value.read` reads one value from bytes, blanks around it, and refuses anything after it. Lists and
objects nest at most `maxDepth` deep. A member that is named twice keeps its first place and its
last value.
-/

namespace HttpDispatch.Json

/-- How deep lists and objects may nest. -/
def maxDepth : Nat := 127

/-- Reads a value in which lists and objects nest less than `depth` deep. -/
def readValue : Nat → Reader Value
  | 0 => failNext .tooDeep
  | depth + 1 => do
    match ← peekToken with
    | none => failNext .endInValue
    | some 0x6E =>
      skip
      expectWord [0x75, 0x6C, 0x6C]
      return .null
    | some 0x74 =>
      skip
      expectWord [0x72, 0x75, 0x65]
      return .flag true
    | some 0x66 =>
      skip
      expectWord [0x61, 0x6C, 0x73, 0x65]
      return .flag false
    | some 0x2D =>
      skip
      return .number (← readNumber true)
    | some 0x22 =>
      skip
      return .text (← readText)
    | some 0x5B =>
      if depth = 0 then failNext .tooDeep
      else
        skip
        let item (acc : List Value) : Reader (List Value) := do
          return (← readValue depth) :: acc
        return .list (← foldItems item itemFollows []).reverse
    | some 0x7B =>
      if depth = 0 then failNext .tooDeep
      else
        skip
        let member (name : String) (acc : List (String × Value)) :
            Reader (List (String × Value)) := do
          expectColon
          return put name (← readValue depth) acc
        return .object (← foldMembers readText member memberFollows [])
    | some b =>
      if isDigitByte b then return .number (← readNumber false) else failNext .expectedValue

/-- The value that a text in bytes denotes. -/
def Value.read (bytes : Bytes) : Except Fault Value :=
  Reader.run (do
    let v ← readValue (maxDepth + 1)
    expectEnd
    return v) bytes

/-- The value that a text denotes. -/
def Value.ofText (s : String) : Except Fault Value := Value.read (Utf8.encode s)

end HttpDispatch.Json
