import HttpDispatch.Message.MediaType
import HttpDispatch.Text.Percent
import HttpDispatch.Text.Utf8

/-!
# Forms

A form has text fields and files, each in the order of submission and possibly several of one name.
Pairs in one line are cut at `&`, each at its first `=`; in both halves a plus sign is a space and
percent escapes are decoded. Query strings and url-encoded bodies are read by the same function; a
form keeps the pairs as a list, a query gathers the values of each name (`Groups`).
-/

namespace HttpDispatch

/-- A file in a form. -/
structure File where
  field : String
  filename : String
  contentType : Option MediaType
  data : Bytes
  deriving DecidableEq, Repr

/-- The text fields and the files of a form, in order of submission. -/
structure Form where
  fields : List (String × String)
  files : List File
  deriving DecidableEq, Repr

/-- Half of a pair: plus signs are spaces, escapes are decoded where they make up UTF-8. -/
def decodeComponent (s : String) : String :=
  Percent.decodeOrKeep (String.ofList (s.toList.map fun c => if c = '+' then ' ' else c))

/-- A pair in notation. -/
def decodePair (s : String) : String × String :=
  let halves := (Text.splitOnce '=' s).getD (s, "")
  (decodeComponent halves.1, decodeComponent halves.2)

/-- The pairs in one line, empty stretches left out. -/
def decodePairs (s : String) : List (String × String) :=
  ((Text.split '&' s).filter (· != "")).map decodePair

/-- The values that a list of pairs gives to a name. -/
def valuesOf (name : String) (pairs : List (String × String)) : List String :=
  (pairs.filter fun p => p.1 == name).map (·.2)

/-- Values gathered under names, each name once, its values in order. -/
abbrev Groups := List (String × List String)

namespace Groups

/-- Adds a value to those of a name. -/
def enter (name value : String) : Groups → Groups
  | [] => [(name, [value])]
  | (other, values) :: rest =>
    if other = name then (other, values ++ [value]) :: rest
    else (other, values) :: enter name value rest

/-- The values of a list of pairs, gathered pair by pair. -/
def ofPairs (pairs : List (String × String)) : Groups :=
  pairs.foldl (fun groups p => groups.enter p.1 p.2) []

end Groups

namespace Form

/-- A form without fields. -/
def empty : Form := ⟨[], []⟩

/-- The form of a url-encoded body. -/
def ofUrlencoded (body : Bytes) : Form := ⟨decodePairs (Utf8.decodeLossy body), []⟩

/-- The values of the fields of a name. -/
def values (form : Form) (name : String) : List String := valuesOf name form.fields

/-- The files of a name. -/
def filesOf (form : Form) (name : String) : List File := form.files.filter fun f => f.field == name

/-- The number of fields and files. -/
def size (form : Form) : Nat := form.fields.length + form.files.length

end Form

end HttpDispatch
