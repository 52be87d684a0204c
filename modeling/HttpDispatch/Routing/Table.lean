import HttpDispatch.Routing.Mapping

/-!
# Selection

Of the entries of a table whose mappings are for a request, the one of the least rank is selected,
and of equal ranks the one that was entered first.
-/

namespace HttpDispatch

/-- The first rank comes before the second. -/
def rankBefore (a b : List Int) : Bool := a < b

/-- An entry that is for a request, with the path variables of the request. -/
structure Selection (ρ : Type) where
  entry : ρ
  index : Nat
  pathVars : Variables

variable {ρ : Type} (mapping : ρ → Mapping) (r : Request)

/-- The better of two selections; the first one if neither has the lesser rank. -/
def Selection.better (a b : Selection ρ) : Selection ρ :=
  if rankBefore (mapping b.entry).rank (mapping a.entry).rank then b else a

/-- The entries that are for the request, the first having the given index. -/
def candidates : Nat → List ρ → List (Selection ρ)
  | _, [] => []
  | index, e :: rest =>
    match (mapping e).capture r with
    | some v => ⟨e, index, v⟩ :: candidates (index + 1) rest
    | none => candidates (index + 1) rest

/-- The entry that is selected for the request, if one is for it. -/
def select (table : List ρ) : Option (Selection ρ) :=
  match candidates mapping r 0 table with
  | [] => none
  | c :: rest => some (rest.foldl (Selection.better mapping) c)

end HttpDispatch
