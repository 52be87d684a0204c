import HttpDispatch.Text.Case
import HttpDispatch.Text.Split

/-!
# Header fields

The header fields of a message, in the order in which they were written. A name may occur more
than once and is compared without regard to letter case. `getAll` gives the values of a name; `add`
appends one, `set` replaces all by one at the end, `erase` removes them.
-/

namespace HttpDispatch

/-- Header fields, first written first. -/
structure Fields where
  toList : List (String × String)
  deriving DecidableEq, Repr, Inhabited

namespace Fields

/-- No fields. -/
def empty : Fields := ⟨[]⟩

variable (h : Fields) (name value : String)

/-- A field has the name. -/
def named (field : String × String) : Bool := Text.sameName field.1 name

/-- Appends a field. -/
def add : Fields := ⟨h.toList ++ [(name, value)]⟩

/-- Removes the fields of a name. -/
def erase : Fields := ⟨h.toList.filter fun f => !named name f⟩

/-- Some field has the name. -/
def contains : Bool := h.toList.any (named name)

/-- Replaces the fields of a name by one. -/
def set : Fields := (h.erase name).add name value

/-- The values of a name. -/
def getAll : List String := (h.toList.filter (named name)).map (·.2)

/-- The first value of a name. -/
def get? : Option String := (h.toList.find? (named name)).map (·.2)

/-- The elements of all comma-separated values of a name. -/
def elements : List String := (h.getAll name).flatMap Text.elements

/-- The number of fields. -/
def size : Nat := h.toList.length

/-- Removes the fields of a name; true if there were any. -/
def remove : Bool × Fields :=
  let rest := h.erase name
  (rest.size != h.size, rest)

/-- One field as it is written. -/
def renderField (field : String × String) : String := field.1 ++ ": " ++ field.2 ++ "\r\n"

/-- The fields as they are written, one a line. -/
def render : String := String.join (h.toList.map renderField)

end Fields

end HttpDispatch
