import HttpDispatch.Argument.Scalar
import HttpDispatch.Json.Printer
import HttpDispatch.Message.Request

/-!
# Arguments

What a handler is given for a parameter. Every argument but the null one knows the name of its
type, and `Args.get` gives the argument at a position only under the type it has. The response
itself is not held in an argument: `response` stands for the one that is being written.

`Arg.capture` turns an argument that is made of data into JSON and anything else into null.
-/

namespace HttpDispatch

/-- An argument of a handler. -/
inductive Arg where
  | null
  | scalar (v : Scalar)
  | option (typeName : String) (v : Option Scalar)
  | list (typeName : String) (items : List Arg)
  | bytes (data : Bytes)
  | file (f : File)
  | request (r : Request)
  | response
  | json (v : Json.Value)
  | record (typeName : String) (fields : List (String × Arg))
  deriving Inhabited

/-- The name of the type of optional values. -/
def optionName (typeName : String) : String := s!"core::option::Option<{typeName}>"

/-- The name of the type of lists. -/
def listName (typeName : String) : String := s!"alloc::vec::Vec<{typeName}>"

/-- The name of the type of byte sequences. -/
def bytesName : String := "bytes::bytes::Bytes"

/-- The name of the type of files. -/
def fileName : String := "restline::http::multipart::MultipartFile"

/-- The name of the type of requests. -/
def requestName : String := "alloc::sync::Arc<restline::http::request::Request>"

/-- The name of the type of responses. -/
def responseName : String := "restline::http::response::Response"

/-- The name of the type of JSON values. -/
def jsonName : String := "serde_json::value::Value"

namespace Arg

/-- The name of an argument's type. -/
def typeName? : Arg → Option String
  | .null => none
  | .scalar v => some v.typeName
  | .option t _ => some (optionName t)
  | .list t _ => some (listName t)
  | .bytes _ => some bytesName
  | .file _ => some fileName
  | .request _ => some requestName
  | .response => some responseName
  | .json _ => some jsonName
  | .record t _ => some t

/-- The name of an argument's type, also of the null argument. -/
def typeName (a : Arg) : String := a.typeName?.getD "null"

/-- The argument is the null one. -/
def isNull (a : Arg) : Bool := a.typeName?.isNone

/-- The argument in short, for diagnostics. -/
def inspect (a : Arg) : String := s!"ArgValue({a.typeName})"

/-- A text as an argument. -/
def ofText (s : String) : Arg := .scalar (.text s)

/-- Files as one argument. -/
def ofFiles (files : List File) : Arg := .list fileName (files.map .file)

/-- A binary number as JSON; null if it is infinite or no number. -/
def realJson (f : Binary.Format) (bits : Nat) : Json.Value :=
  let s := Binary.split f bits
  let v := Binary.value f s.2
  if f.infinity ≤ s.2 then .null
  else
    let wide := Binary.ofRatio Binary.double (v.1 <<< v.2) (1 <<< f.depth)
    .number (.real (UInt64.ofNat (Binary.signed Binary.double s.1 wide)))

/-- A scalar as JSON. -/
def scalarJson : Scalar → Json.Value
  | .text s => .text s
  | .flag b => .flag b
  | .char c => .text c.toString
  | .whole _ n => .number (.integer n)
  | .single bits => realJson Binary.single bits
  | .double bits => realJson Binary.double bits
  | .wrapped _ v => scalarJson v

mutual

/-- The argument as JSON; null for what is no data. -/
def capture : Arg → Json.Value
  | .scalar v => scalarJson v
  | .option _ (some v) => scalarJson v
  | .list _ items => .list (captureItems items)
  | .json v => v
  | .record _ fields => .object (captureFields fields)
  | _ => .null

/-- The items of a list as JSON. -/
def captureItems : List Arg → List Json.Value
  | [] => []
  | a :: r => a.capture :: captureItems r

/-- The fields of a record as JSON. -/
def captureFields : List (String × Arg) → List (String × Json.Value)
  | [] => []
  | (name, a) :: r => (name, a.capture) :: captureFields r

end

end Arg

/-- Why an argument is not what a handler takes it for. -/
inductive ArgFault where
  | outOfRange (index count : Nat)
  | wrongType (index : Nat) (expected found : String)
  | stated (text : String)
  deriving DecidableEq, Repr

/-- The wording of a fault. -/
def ArgFault.message : ArgFault → String
  | .outOfRange index count => s!"argument index {index} out of range ({count} resolved)"
  | .wrongType index expected found => s!"argument [{index}] expected {expected}, found {found}"
  | .stated text => text

/-- The arguments of a call in the order of the parameters. -/
abbrev Args := List Arg

namespace Args

/-- The argument at a position, if it has the type. -/
def get (args : Args) (typeName : String) (index : Nat) : Except ArgFault Arg :=
  match args[index]? with
  | none => .error (.outOfRange index args.length)
  | some a =>
    if a.typeName? = some typeName then .ok a
    else .error (.wrongType index typeName a.typeName)

/-- The argument at a position, if it has the type or is null. -/
def get? (args : Args) (typeName : String) (index : Nat) : Except ArgFault (Option Arg) :=
  match args[index]? with
  | none => .error (.outOfRange index args.length)
  | some a => if a.isNull then .ok none else (args.get typeName index).map some

end Args

end HttpDispatch
