/-!
# Path variables

What a template captures from a path: one text for each name, the last one captured if a name
occurs more than once.
-/

namespace HttpDispatch

/-- Captured texts under names. -/
structure Variables where
  toList : List (String × String)
  deriving DecidableEq, Repr, Inhabited

namespace Variables

/-- Nothing captured. -/
def empty : Variables := ⟨[]⟩

variable (v : Variables) (name : String)

/-- The text under a name. -/
def get? : Option String := v.toList.lookup name

/-- Puts a text under a name, in place of the one that is there. -/
def insert (text : String) : Variables :=
  ⟨v.toList.filter (fun p => p.1 != name) ++ [(name, text)]⟩

/-- The number of names. -/
def size : Nat := v.toList.length

/-- The variables with the given texts, later ones in place of earlier ones. -/
def ofList (l : List (String × String)) : Variables :=
  l.foldl (fun v p => v.insert p.1 p.2) empty

end Variables

end HttpDispatch
