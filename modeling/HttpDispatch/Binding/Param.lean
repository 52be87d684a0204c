import HttpDispatch.Binding.Codec
import HttpDispatch.Work.Act

/-!
# Parameters

A parameter of a handler has a place in the order, a name, a source in the request, a type, and a
rule for when the request has no value for it. Types are scalars, optional scalars, lists of
scalars, bytes, entities, files, the request and the response themselves, and beans. A bean is a
value that is assembled from parameters of its own.

`ParamType.convert` turns texts into an argument of a type, `ParamType.emptyValue` is the argument
that stands for nothing.
-/

namespace HttpDispatch

/-- Where the value of a parameter comes from. -/
inductive Source where
  | query
  | header
  | path
  | cookie
  | form
  | body
  | part
  | injected
  | bean
  deriving DecidableEq, Repr

/-- The word for a source. -/
def Source.label : Source → String
  | .query => "Query"
  | .header => "Header"
  | .path => "Path"
  | .cookie => "Cookie"
  | .form => "Form"
  | .body => "Body"
  | .part => "Part"
  | .injected => "Injected"
  | .bean => "Bean"

/-- What stops a handler or the assembly of a bean: arguments that it cannot use, or a failure. -/
inductive CallFault where
  | mismatch (f : ArgFault)
  | failed (f : Failure)
  deriving DecidableEq, Repr

/-- What application code gives that works with arguments. -/
abbrev Call (σ : Type) := ExceptT CallFault (Act σ)

/-- A parameter whose type is of the kind `τ`. -/
structure ParamOf (τ : Type) where
  index : Nat
  name : String
  source : Source
  type : τ
  required : Bool
  default : Option String

/-- A bean whose fields have types of the kind `τ`. -/
structure BeanOf (σ τ : Type) where
  name : String
  fields : List (ParamOf τ)
  assemble : Request → Args → Call σ Arg

/-- A type of parameters. -/
inductive ParamType (σ : Type) where
  | scalar (t : ScalarType)
  | option (t : ScalarType)
  | list (t : ScalarType)
  | bytes
  | entity (e : EntityType)
  | file
  | files
  | request
  | response
  | bean (b : BeanOf σ (ParamType σ))

/-- A parameter. -/
abbrev Param (σ : Type) := ParamOf (ParamType σ)

/-- A bean. -/
abbrev Bean (σ : Type) := BeanOf σ (ParamType σ)

variable {σ : Type}

namespace ParamType

/-- The type in a signature. -/
def signature : ParamType σ → String
  | scalar t => t.name
  | option t => s!"Option<{t.name}>"
  | list t => s!"Vec<{t.name}>"
  | bytes => "Bytes"
  | entity e => e.name
  | file => "MultipartFile"
  | files => "Vec<MultipartFile>"
  | request => "Arc<Request>"
  | response => "Response"
  | bean b => b.name

/-- A name within a label. -/
def labelled (label name : String) : String := s!"{label}({Text.quoted name})"

/-- The type in short, for diagnostics. -/
def inspect : ParamType σ → String
  | scalar t => "Scalar(" ++ labelled "Scalar" t.name ++ ")"
  | option t => "Optional(" ++ labelled "Scalar" t.name ++ ")"
  | list t => "List(" ++ labelled "Scalar" t.name ++ ")"
  | bytes => "Bytes"
  | entity e => "Entity(" ++ e.inspect ++ ")"
  | file => "File"
  | files => "Files"
  | request => "Request"
  | response => "Response"
  | bean b => "Bean(" ++ labelled "BeanType" b.name ++ ")"

/-- The name of the type of the arguments that the type stands for. -/
def argName : ParamType σ → String
  | scalar t => t.name
  | option t => optionName t.name
  | list t => listName t.name
  | bytes => bytesName
  | entity e => e.name
  | file => fileName
  | files => listName fileName
  | request => requestName
  | response => responseName
  | bean b => b.name

/-- Arguments of the type can be made from text alone. -/
def isTextual : ParamType σ → Bool
  | scalar _ => true
  | option _ => true
  | list _ => true
  | bytes => true
  | _ => false

/-- The scalars of the type are texts. -/
def isText : ParamType σ → Bool
  | scalar t => t.isText
  | option t => t.isText
  | list t => t.isText
  | _ => false

/-- Values of scalars as a list. -/
def listOf (t : ScalarType) (items : List Scalar) : Arg := .list t.name (items.map .scalar)

/-- The entity that a JSON text denotes. -/
def readEntity (e : EntityType) (text : String) : Except CodecFault Arg := do
  e.decode (← (Json.Value.ofText text).mapError .json)

/-- The argument that texts denote, or why they denote none; a list has the elements of all texts,
any other type looks at the first text. -/
def convert (type : ParamType σ) (values : List String) : Except String Arg :=
  let first (f : String → Except String Arg) : Except String Arg :=
    match values with
    | [] => .error "no value to convert"
    | v :: _ => f v
  match type with
  | scalar t => first fun v => (t.convert v).map .scalar
  | option t => first fun v => (t.convert v).map fun s => .option t.name (some s)
  | list t => ((values.flatMap Text.elements).mapM t.convert).map (listOf t)
  | bytes => first fun v => .ok (.bytes (Utf8.encode v))
  | entity e => first fun v => (readEntity e v).mapError CodecFault.message
  | type => .error s!"{type.signature} cannot be converted from text"

/-- The argument that stands for nothing. -/
def emptyValue : ParamType σ → Arg
  | scalar t => (t.zero.map .scalar).getD .null
  | option t => .option t.name none
  | list t => listOf t []
  | bytes => .bytes []
  | files => .ofFiles []
  | _ => .null

end ParamType

namespace ParamOf

/-- A parameter that is required unless its type is optional. -/
def of (name : String) (source : Source) (type : ParamType σ) : Param σ :=
  let required := match type with
    | .option _ => false
    | _ => true
  ⟨0, name, source, type, required, none⟩

/-- A parameter for the request or the response themselves. -/
def ofInjected (type : ParamType σ) : Param σ :=
  let name := match type with
    | .response => "response"
    | _ => "request"
  of name .injected type

/-- Parameters numbered in their order. -/
def numbered (params : List (Param σ)) : List (Param σ) :=
  params.mapIdx fun index p => { p with index }

/-- The parameter in short, for diagnostics. -/
def inspect (p : Param σ) : String :=
  "Param \x7b index: " ++ toString p.index ++ ", name: " ++ Text.quoted p.name ++ ", ty: " ++
    p.type.inspect ++ ", source: " ++ p.source.label ++ ", required: " ++ toString p.required ++
    ", default_value: " ++ Text.quotedOption p.default ++ " \x7d"

end ParamOf

end HttpDispatch
