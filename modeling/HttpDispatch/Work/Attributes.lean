import HttpDispatch.Argument.Scalar

/-!
# Attributes

What the parts of an application tell each other about a request: values under names, one for each
name. A value is given out only under its own type.
-/

namespace HttpDispatch

/-- Values under names. -/
structure Attributes where
  toList : List (String × Scalar)
  deriving DecidableEq, Repr, Inhabited

namespace Attributes

/-- No values. -/
def empty : Attributes := ⟨[]⟩

variable (a : Attributes) (name : String)

/-- The value under a name. -/
def find? : Option Scalar := a.toList.lookup name

/-- Some value is under the name. -/
def contains : Bool := (a.find? name).isSome

/-- Takes the value under a name away. -/
def erase : Attributes := ⟨a.toList.filter fun p => p.1 != name⟩

/-- Puts a value under a name, in place of the one that is there. -/
def set (v : Scalar) : Attributes := ⟨(a.erase name).toList ++ [(name, v)]⟩

/-- The value under a name, if it has the type. -/
def get? (typeName : String) : Option Scalar := (a.find? name).filter (·.typeName == typeName)

end Attributes

end HttpDispatch
