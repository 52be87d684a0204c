import HttpDispatch.Number.Binary
import HttpDispatch.Text.Case
import HttpDispatch.Text.Quoted
import HttpDispatch.Text.Split

/-!
# Media types

A type and a subtype, in lower case, with parameters in their order. `ofText` reads the notation
`type/subtype;name=value`, `render` writes it. A star stands for every subtype, or for every type
and subtype; `includes` orders media types by what they cover.
-/

namespace HttpDispatch

/-- A media type or a range of them. -/
structure MediaType where
  kind : String
  subtype : String
  params : List (String × String)
  deriving DecidableEq, Repr, Inhabited

/-- A text that is no media type. -/
structure InvalidMediaType where
  text : String
  deriving DecidableEq, Repr

/-- The wording of the fault. -/
def InvalidMediaType.message (e : InvalidMediaType) : String :=
  "invalid media type: " ++ Text.quoted e.text

namespace MediaType

/-- A media type without parameters. -/
def of (kind subtype : String) : MediaType := ⟨Text.lower kind, Text.lower subtype, []⟩

/-- Adds a parameter. -/
def withParam (m : MediaType) (name value : String) : MediaType :=
  { m with params := m.params ++ [(Text.lower name, value)] }

/-- Every media type. -/
def all : MediaType := of "*" "*"

/-- JSON documents. -/
def json : MediaType := of "application" "json"

/-- Protocol buffers. -/
def protobuf : MediaType := of "application" "x-protobuf"

/-- XML documents. -/
def xml : MediaType := of "application" "xml"

/-- Bytes of no known type. -/
def octetStream : MediaType := of "application" "octet-stream"

/-- Form fields as pairs in one line. -/
def formUrlencoded : MediaType := of "application" "x-www-form-urlencoded"

/-- Form fields and files as parts. -/
def formData : MediaType := of "multipart" "form-data"

/-- Text. -/
def plainText : MediaType := of "text" "plain"

/-- The media type of a short format name. -/
def ofFormat? (format : String) : Option MediaType :=
  match Text.lower (Text.trim format) with
  | "json" => some json
  | "pb" => some protobuf
  | "protobuf" => some protobuf
  | "proto" => some protobuf
  | "xml" => some xml
  | "text" => some plainText
  | "txt" => some plainText
  | _ => none

/-- Type and subtype. -/
def essence (m : MediaType) : String := m.kind ++ "/" ++ m.subtype

/-- The first value of a parameter. -/
def param? (m : MediaType) (name : String) : Option String :=
  (m.params.find? fun p => Text.sameName p.1 name).map (·.2)

/-- The type and the subtype before the parameters. -/
def ofEssence? (text : String) : Option MediaType :=
  let text := Text.trim text
  let text := if text = "*" then "*/*" else text
  match Text.splitOnce '/' text with
  | none => none
  | some (kind, subtype) =>
    let kind := Text.trim kind
    let subtype := Text.trim subtype
    if kind = "" || subtype = "" || (kind = "*" && subtype != "*") then none
    else some (of kind subtype)

/-- The parameter in notation, as a list of one; a blank text is no parameter. -/
def readParam? (text : String) : Option (List (String × String)) :=
  let text := Text.trim text
  if text = "" then some []
  else
    (Text.splitOnce '=' text).map fun p =>
      [(Text.lower (Text.trim p.1), Text.unquote (Text.trim p.2))]

/-- The media type in notation, if the text is one. -/
def ofText? (s : String) : Option MediaType :=
  match Text.split ';' s with
  | [] => none
  | essence :: params => do
    let m ← ofEssence? essence
    return { m with params := (← params.mapM readParam?).flatten }

/-- The media type in notation. -/
def ofText (s : String) : Except InvalidMediaType MediaType :=
  match ofText? s with
  | some m => .ok m
  | none => .error ⟨s⟩

/-- The media type as it is written. -/
def render (m : MediaType) : String :=
  m.essence ++ String.join (m.params.map fun p => ";" ++ p.1 ++ "=" ++ p.2)

/-- The range covers every type. -/
def anyKind (m : MediaType) : Bool := m.kind == "*"

/-- The range covers every subtype. -/
def anySubtype (m : MediaType) : Bool := m.subtype == "*"

/-- Everything that `b` covers is covered by `a`. -/
def includes (a b : MediaType) : Bool :=
  a.anyKind || (a.kind == b.kind && (a.anySubtype || a.subtype == b.subtype))

/-- One of the two covers the other. -/
def compatible (a b : MediaType) : Bool := a.includes b || b.includes a

/-- The pattern of the number one. -/
def fullQuality : Nat := 0x3F800000

/-- A quality, moved into the range from zero to one unless it is not a number. -/
def clampQuality (q : Nat) : Nat :=
  if Binary.lt Binary.single q 0 then 0
  else if Binary.lt Binary.single fullQuality q then fullQuality
  else q

/-- How much a range is wanted, as a number of 32 bits: one if nothing is said, zero if what is
said is no number. -/
def quality (m : MediaType) : Nat :=
  match m.param? "q" with
  | none => fullQuality
  | some q =>
    match Binary.read Binary.single (Text.trim q) with
    | .ok bits => clampQuality bits
    | .error _ => 0

/-- How definite a range is: two for one type, one for one kind, zero for all. -/
def definiteness (m : MediaType) : Nat :=
  if m.anyKind then 0 else if m.anySubtype then 1 else 2

end MediaType

end HttpDispatch
