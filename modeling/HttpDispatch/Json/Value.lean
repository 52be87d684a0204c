/-!
# JSON values

The data model that entities pass through. Objects keep the order in which their members were
first named; `put` gives a name a value, in place if the name is there already.
-/

namespace HttpDispatch.Json

/-- A number: an integer of at most 64 bits, or a finite binary number of 64 bits given by its
pattern. -/
inductive Number where
  | integer (n : Int)
  | real (bits : UInt64)
  deriving DecidableEq, Repr

/-- A JSON value. -/
inductive Value where
  | null
  | flag (b : Bool)
  | number (n : Number)
  | text (s : String)
  | list (items : List Value)
  | object (members : List (String × Value))
  deriving Repr, Inhabited

/-- A natural number as a value. -/
def Value.ofNat (n : Nat) : Value := .number (.integer n)

/-- The members after `name` is given the value `v`. -/
def put (name : String) (v : Value) : List (String × Value) → List (String × Value)
  | [] => [(name, v)]
  | (n, w) :: r => if n = name then (n, v) :: r else (n, w) :: put name v r

end HttpDispatch.Json
