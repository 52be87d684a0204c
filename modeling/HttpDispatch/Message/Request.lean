import HttpDispatch.Message.Accept
import HttpDispatch.Message.Head
import HttpDispatch.Message.Method
import HttpDispatch.Message.Multipart
import HttpDispatch.Number.Whole

/-!
# Requests

A request with its body, and the views of it that handlers ask for: query parameters, cookies, the
form, the accepted media types. `Request.read` takes the request at the front of a buffer; its
body is what the first `Content-Length` declares, as far as the buffer goes.
-/

namespace HttpDispatch

/-- A request. -/
structure Request where
  method : Method
  path : String
  query : Option String
  version : Nat
  fields : Fields
  body : Bytes
  deriving DecidableEq, Repr

/-- Why there is no request at the front of a buffer. -/
inductive RequestFault where
  | incomplete
  | malformed (f : HeadFault)
  deriving DecidableEq, Repr

/-- The wording of a fault. -/
def RequestFault.message : RequestFault → String
  | .incomplete => "request is incomplete, more data needed"
  | .malformed f => "HTTP parse error: " ++ f.message

/-- Adds a cookie in a field of its own. -/
def Fields.addCookie (h : Fields) (name value : String) : Fields :=
  h.add "Cookie" (name ++ "=" ++ value)

namespace Request

/-- A request for a target, which is a path and possibly a query after the first question mark. -/
def of (method : Method) (target : String) (version : Nat) (fields : Fields) (body : Bytes) :
    Request :=
  match Text.splitOnce '?' target with
  | some (path, query) => ⟨method, path, some query, version, fields, body⟩
  | none => ⟨method, target, none, version, fields, body⟩

variable (r : Request)

/-- The size of the body that the request declares. -/
def contentLength? : Option Nat := (r.fields.get? "content-length").bind Whole.readSize?

/-- The media type of the body that the request declares. -/
def contentType? : Option MediaType := (r.fields.get? "content-type").bind MediaType.ofText?

/-- The client wants to go on using the connection: it says so, or it says nothing and its version
has that as the rule. -/
def isKeepAlive : Bool :=
  match r.fields.get? "connection" with
  | some value => Text.sameName value "keep-alive"
  | none => r.version == 1

/-- The media types that the client accepts, most wanted first. -/
def accepted : List MediaType := Accept.ofFields r.fields

/-- The query parameters, the values of each name gathered. -/
def queryGroups : Groups := .ofPairs ((r.query.map decodePairs).getD [])

/-- The values of a query parameter. -/
def queryParams (name : String) : List String := (r.queryGroups.lookup name).getD []

/-- The first value of a query parameter. -/
def queryParam? (name : String) : Option String := (r.queryGroups.lookup name).bind List.head?

/-- A cookie in notation; one without a name is none. -/
def cookieOf? (text : String) : Option (String × String) :=
  (Text.splitOnce '=' text).bind fun p =>
    let name := Text.trim p.1
    if name = "" then none else some (name, Text.unquote (Text.trim p.2))

/-- The cookies of a request, in order. -/
def cookies : List (String × String) :=
  ((r.fields.getAll "cookie").flatMap (Text.split ';')).filterMap cookieOf?

/-- The value of the first cookie of a name. -/
def cookie? (name : String) : Option String := r.cookies.lookup name

/-- The form in the body; empty if the body is declared to be something else. -/
def form : Except FormFault Form :=
  match r.contentType? with
  | none => .ok .empty
  | some m =>
    if m.essence = MediaType.formUrlencoded.essence then .ok (.ofUrlencoded r.body)
    else if m.essence = MediaType.formData.essence then
      match m.param? "boundary" with
      | none => .error .missingBoundary
      | some boundary => Multipart.read boundary r.body
    else .ok .empty

/-- The fields of a head whose values are text; others are dropped. -/
def textFields (fields : List (String × Bytes)) : Fields :=
  ⟨fields.filterMap fun f => (Utf8.decode? f.2).map fun value => (f.1, value)⟩

/-- The request of a head, without its body. -/
def ofHead (h : Head) : Request :=
  .of (.ofName h.method) h.target h.version (textFields h.fields) []

/-- The request at the front of a buffer, and its head. -/
def read (bytes : Bytes) : Except RequestFault (Request × Head) :=
  match Head.read bytes with
  | .error .cut => .error .incomplete
  | .error (.fault f) => .error (.malformed f)
  | .ok h =>
    let r := ofHead h
    .ok ({ r with body := (bytes.drop h.size).take (r.contentLength?.getD 0) }, h)

end Request

end HttpDispatch
