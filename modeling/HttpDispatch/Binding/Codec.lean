import HttpDispatch.Argument.Shape
import HttpDispatch.Json.Reader

/-!
# Codecs

A codec reads and writes entities in a media type, by way of JSON values. `Codec.json` is the one
for JSON itself: it takes every entity and every media type that `application/json` is compatible
with or that has the suffix `+json`.

`Codecs` are the codecs of an application, in order, with the name of the query parameter by which
a client may ask for a format.
-/

namespace HttpDispatch

/-- Why an entity cannot be read or written. -/
inductive CodecFault where
  | json (f : Json.Fault)
  | unsupported (codec typeName : String)
  deriving DecidableEq, Repr

/-- The wording of a fault. -/
def CodecFault.message : CodecFault → String
  | .json f => f.message
  | .unsupported codec typeName => s!"{codec} cannot handle {typeName}"

/-- The argument that a value is when it is read as an entity of a type. -/
def EntityType.decode (e : EntityType) (v : Json.Value) : Except CodecFault Arg :=
  match e.read with
  | some f => (f v).mapError fun m => .json (.ofMismatch m)
  | none => .error (.unsupported "entity decoder" e.name)

/-- A reader and writer of entities. -/
structure Codec where
  name : String
  mediaType : MediaType
  order : Int
  reads : MediaType → EntityType → Bool
  writes : MediaType → EntityType → Bool
  encode : Json.Value → EntityType → Except CodecFault Bytes
  decode : Bytes → EntityType → Except CodecFault Json.Value

/-- The least order. -/
def firstOrder : Int := -2147483648

/-- The greatest order. -/
def lastOrder : Int := 2147483647

namespace Codec

/-- The media type is one of JSON documents, or a range that covers them. -/
def isJson (m : MediaType) : Bool :=
  m.compatible .json || (m.kind == "application" && m.subtype.endsWith "+json")

/-- The codec for JSON. -/
def json : Codec where
  name := "json"
  mediaType := .json
  order := lastOrder
  reads m _ := isJson m
  writes m _ := isJson m
  encode v _ := .ok (Utf8.encode v.render)
  decode body _ := (Json.Value.read body).mapError .json

end Codec

/-- The codecs of an application, and the query parameter that names a format. -/
structure Codecs where
  list : List Codec
  formatParam : Option String

namespace Codecs

/-- The first codec that reads entities of a type in a media type. -/
def reader? (c : Codecs) (m : MediaType) (e : EntityType) : Option Codec :=
  c.list.find? fun k => k.reads m e

/-- The first codec that writes entities of a type in a media type. -/
def writer? (c : Codecs) (m : MediaType) (e : EntityType) : Option Codec :=
  c.list.find? fun k => k.writes m e

/-- The first codec of a name. -/
def named? (c : Codecs) (name : String) : Option Codec := c.list.find? fun k => k.name == name

/-- The format that a request asks for by the query parameter. -/
def format? (c : Codecs) (r : Request) : Option String := c.formatParam.bind r.queryParam?

/-- The codecs in short, for diagnostics. -/
def inspect (c : Codecs) : String :=
  "ResolverContext \x7b serializers: [" ++ ", ".intercalate (c.list.map (Text.quoted ·.name)) ++
    "], format_parameter: " ++ Text.quotedOption c.formatParam ++ " \x7d"

end Codecs

end HttpDispatch
