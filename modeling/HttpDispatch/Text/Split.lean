import HttpDispatch.Text.Blank

/-!
# Splitting text at a character

`pieces` cuts at every occurrence of a separator and never returns the empty list; `split` is the
same on strings. `splitOnce` cuts at the first occurrence only. `elements` reads a comma-separated
list: the pieces, trimmed, without the blank ones.
-/

namespace HttpDispatch.Text

/-- The stretches of `l` between occurrences of `sep`. -/
def pieces (sep : Char) : List Char → List (List Char)
  | [] => [[]]
  | c :: r =>
    if c = sep then [] :: pieces sep r
    else
      match pieces sep r with
      | [] => [[c]]
      | p :: ps => (c :: p) :: ps

/-- The stretches of `s` between occurrences of `sep`; one, the whole text, if there is none. -/
def split (sep : Char) (s : String) : List String := (pieces sep s.toList).map String.ofList

/-- What stands before and after the first `sep`, if there is one. -/
def cutAt (sep : Char) : List Char → Option (List Char × List Char)
  | [] => none
  | c :: r => if c = sep then some ([], r) else (cutAt sep r).map fun q => (c :: q.1, q.2)

/-- The texts before and after the first `sep`, if there is one. -/
def splitOnce (sep : Char) (s : String) : Option (String × String) :=
  (cutAt sep s.toList).map fun q => (String.ofList q.1, String.ofList q.2)

/-- The elements of a comma-separated list: trimmed, blank ones left out. -/
def elements (s : String) : List String := ((split ',' s).map trim).filter (· != "")

/-- The text after the last `sep`, or the whole text. -/
def afterLast (sep : Char) (s : String) : String := (split sep s).getLastD s

end HttpDispatch.Text
