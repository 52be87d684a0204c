import HttpDispatch.Number.Binary
import HttpDispatch.Number.Whole
import HttpDispatch.Text.Quoted

/-!
# Single values

A `Scalar` is a single value that is read from text: a text, a flag, a character, an integer of
some width, a binary number, or such a value in a type of its own. Every scalar knows the name of
its type. A `ScalarType` is a type of scalars: a name, a reader, and the value it has when nothing
is said, if there is one; what its reader gives is of that type.
-/

namespace HttpDispatch

/-- How wide an integer is. -/
inductive Width where
  | w8
  | w16
  | w32
  | w64
  | w128
  | size
  deriving DecidableEq, Repr

/-- The number of bits of a width; sizes have 64. -/
def Width.bits : Width → Nat
  | .w8 => 8
  | .w16 => 16
  | .w32 => 32
  | .w64 => 64
  | .w128 => 128
  | .size => 64

/-- A width in a type name. -/
def Width.label : Width → String
  | .size => "size"
  | w => toString w.bits

/-- The integers of a width, with or without negative ones. -/
structure WholeType where
  signed : Bool
  width : Width
  deriving DecidableEq, Repr

namespace WholeType

/-- The name of the type. -/
def name (t : WholeType) : String := (if t.signed then "i" else "u") ++ t.width.label

/-- How many integers there are. -/
def count (t : WholeType) : Nat := 1 <<< t.width.bits

/-- The least integer. -/
def lo (t : WholeType) : Int := if t.signed then -(t.count / 2) else 0

/-- The greatest integer. -/
def hi (t : WholeType) : Int :=
  if t.signed then t.count / 2 - 1 else t.count - 1

/-- The integer is one of the type. -/
def holds (t : WholeType) (n : Int) : Bool := t.lo ≤ n && n ≤ t.hi

/-- The integers of 32 bits without negative ones. -/
def u32 : WholeType := ⟨false, .w32⟩

/-- The integers of 32 bits. -/
def i32 : WholeType := ⟨true, .w32⟩

/-- The integers of 64 bits. -/
def i64 : WholeType := ⟨true, .w64⟩

/-- The integer of the type that agrees with `n` in its low bits. -/
def wrap (t : WholeType) (n : Int) : Int :=
  if t.signed then Int.bmod n t.count else Int.emod n t.count

end WholeType

/-- A single value; binary numbers are given by their patterns. -/
inductive Scalar where
  | text (s : String)
  | flag (b : Bool)
  | char (c : Char)
  | whole (t : WholeType) (n : Int)
  | single (bits : Nat)
  | double (bits : Nat)
  | wrapped (typeName : String) (inner : Scalar)
  deriving DecidableEq, Repr

/-- The name of the type of texts. -/
def textTypeName : String := "alloc::string::String"

/-- The name of a value's type. -/
def Scalar.typeName : Scalar → String
  | .text _ => textTypeName
  | .flag _ => "bool"
  | .char _ => "char"
  | .whole t _ => t.name
  | .single _ => "f32"
  | .double _ => "f64"
  | .wrapped name _ => name

/-- A type of single values. -/
structure ScalarType where
  name : String
  read : String → Except String Scalar
  zero : Option Scalar
  typed : ∀ s v, read s = .ok v → v.typeName = name

namespace ScalarType

/-- The type whose values a parser gives after `wrap`. -/
def ofParser {α : Type} (name : String) (parse : String → Except String α) (wrap : α → Scalar)
    (zero : Option Scalar) (typed : ∀ a, (wrap a).typeName = name) : ScalarType where
  name := name
  read s := (parse s).map wrap
  zero := zero
  typed s v h := by
    cases hp : parse s with
    | error e => simp [hp, Except.map] at h
    | ok a =>
      simp only [hp, Except.map, Except.ok.injEq] at h
      rw [← h, typed a]

/-- Texts, which are read as they are. -/
def text : ScalarType := ofParser textTypeName .ok .text (some (.text "")) fun _ => rfl

/-- The wording of a text that is no flag. -/
def notFlag : String := "provided string was not `true` or `false`"

/-- Flags, written in full. -/
def flag : ScalarType :=
  ofParser "bool"
    (fun s => if s = "true" then .ok true else if s = "false" then .ok false else .error notFlag)
    .flag (some (.flag false)) fun _ => rfl

/-- The only character of a text. -/
def readChar (s : String) : Except String Char :=
  match s.toList with
  | [] => .error "cannot parse char from empty string"
  | [c] => .ok c
  | _ => .error "too many characters in string"

/-- Characters, which stand alone. -/
def char : ScalarType := ofParser "char" readChar .char (some (.char '\x00')) fun _ => rfl

/-- Integers of a width. -/
def whole (t : WholeType) : ScalarType :=
  ofParser t.name (fun s => (Whole.read t.lo t.hi s).mapError WholeFault.message) (.whole t)
    (some (.whole t 0)) fun _ => rfl

/-- Binary numbers of 32 bits. -/
def single : ScalarType :=
  ofParser "f32" (fun s => (Binary.read Binary.single s).mapError Binary.Fault.message) .single
    (some (.single 0)) fun _ => rfl

/-- Binary numbers of 64 bits. -/
def double : ScalarType :=
  ofParser "f64" (fun s => (Binary.read Binary.double s).mapError Binary.Fault.message) .double
    (some (.double 0)) fun _ => rfl

/-- A type of its own around the values of another; what the other refuses is refused with one
complaint. -/
def wrapped (name : String) (inner : ScalarType) (complaint : String) : ScalarType :=
  ofParser name (fun s => (inner.read s).mapError fun _ => complaint) (.wrapped name)
    (inner.zero.map (.wrapped name)) fun _ => rfl

/-- The same type without a value for when nothing is said. -/
def withoutZero (t : ScalarType) : ScalarType := { t with zero := none }

/-- The values of the type are texts. -/
def isText (t : ScalarType) : Bool := t.name == textTypeName

/-- The value of the type that a text denotes. -/
def convert (t : ScalarType) (raw : String) : Except String Scalar :=
  (t.read raw).mapError fun e => s!"cannot convert {Text.quoted raw} to {t.name}: {e}"

end ScalarType

end HttpDispatch
