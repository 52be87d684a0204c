import HttpDispatch.Json.Printer
import HttpDispatch.Message.Request
import HttpDispatch.Message.Response
import HttpDispatch.Work.Failure

/-!
# Error bodies

The JSON document that tells a client what went wrong: the status, its reason, a message, the path,
and the causes if there are any to tell.
-/

namespace HttpDispatch

/-- What a client is told about a failure. -/
structure ErrorBody where
  status : Status
  message : String
  path : String
  causes : List String := []
  deriving DecidableEq, Repr

namespace ErrorBody

/-- The document as a JSON value. -/
def value (b : ErrorBody) : Json.Value :=
  let causes := if b.causes.isEmpty then [] else [("causes", Json.Value.list (b.causes.map .text))]
  .object ([("status", Json.Value.ofNat b.status.code), ("error", .text b.status.reason),
    ("message", .text b.message), ("path", .text b.path)] ++ causes)

/-- The document as it is sent. -/
def encode (b : ErrorBody) : Bytes := Utf8.encode b.value.render

/-- The step that sends the document as the response. -/
def send (b : ErrorBody) : Response.Op := .send b.status (some MediaType.json.render) b.encode

/-- What a client is told about the failure of a request. -/
def ofFailure (f : Failure) (path : String) (withCauses : Bool) : ErrorBody :=
  ⟨f.answer, f.message, path, if withCauses then f.causes else []⟩

end ErrorBody

end HttpDispatch
