import HttpDispatch.Message.Fields
import HttpDispatch.Message.Status
import HttpDispatch.Text.Utf8

/-!
# Responses

A response is written step by step until it is committed; from then on its status, its fields and
its body stay, and only the wish to keep the connection can change. `commit` and `send` say whether
they were the ones that committed it.

`encode` gives the bytes on the wire: the status line, the fields, a content type if there is a body
without one, the fate of the connection, the length of the body, an empty line and the body.

`Response.Op` is the list of steps; `Evolves r s` says that some steps lead from `r` to `s`.
-/

namespace HttpDispatch

/-- A response as far as it is written. -/
structure Response where
  status : Status := .ok
  fields : Fields := .empty
  body : Bytes := []
  committed : Bool := false
  keepAlive : Bool := true
  deriving DecidableEq, Repr

namespace Response

variable (r : Response)

/-- A change that comes too late once the response is committed. -/
def change (f : Response → Response) : Response := if r.committed then r else f r

/-- Sets the status. -/
def setStatus (status : Status) : Response := r.change fun r => { r with status }

/-- Appends a field. -/
def addField (name value : String) : Response :=
  r.change fun r => { r with fields := r.fields.add name value }

/-- Replaces the fields of a name. -/
def setField (name value : String) : Response :=
  r.change fun r => { r with fields := r.fields.set name value }

/-- Appends to the body. -/
def write (bytes : Bytes) : Response := r.change fun r => { r with body := r.body ++ bytes }

/-- Replaces the body. -/
def setBody (bytes : Bytes) : Response := r.change fun r => { r with body := bytes }

/-- Decides whether the connection is kept, at any time. -/
def setKeepAlive (keepAlive : Bool) : Response := { r with keepAlive }

/-- Commits the response; true if it was not committed yet. -/
def commit : Bool × Response := (!r.committed, { r with committed := true })

/-- Writes status, content type if given, and body, and commits, unless the response is committed
already. -/
def send (status : Status) (contentType : Option String) (body : Bytes) : Bool × Response :=
  if r.committed then (false, r)
  else
    let fields := match contentType with
      | some value => r.fields.set "Content-Type" value
      | none => r.fields
    (true, { r with status, fields, body, committed := true })

/-- Some field says what the body is. -/
def hasContentType : Bool := r.fields.contains "content-type"

/-! ### On the wire -/

/-- The fate of the connection in words. -/
def connection : String := if r.keepAlive then "keep-alive" else "close"

/-- The fields that are sent, the length of the body apart. -/
def sentFields : Fields :=
  let fields :=
    if r.body.isEmpty || r.hasContentType then r.fields
    else r.fields.add "Content-Type" "text/plain; charset=utf-8"
  fields.set "Connection" r.connection

/-- Everything before the body. -/
def head : String :=
  "HTTP/1.1 " ++ r.status.render ++ "\r\n" ++ r.sentFields.render ++
    Fields.renderField ("Content-Length", toString r.body.length) ++ "\r\n"

/-- The response on the wire. -/
def encode : Bytes := Utf8.encode r.head ++ r.body

/-- The response in short, for diagnostics. -/
def inspect : String :=
  "Response \x7b status: " ++ r.status.label ++ ", committed: " ++ toString r.committed ++
    ", body: " ++ toString r.body.length ++ " \x7d"

/-! ### Steps -/

/-- A step in writing a response. -/
inductive Op where
  | setStatus (status : Status)
  | addField (name value : String)
  | setField (name value : String)
  | write (bytes : Bytes)
  | setBody (bytes : Bytes)
  | send (status : Status) (contentType : Option String) (body : Bytes)
  | commit
  | setKeepAlive (keepAlive : Bool)
  deriving DecidableEq, Repr

/-- What a step does to a response, and what it answers: true if it committed the response. -/
def apply (r : Response) : Op → Bool × Response
  | .setStatus status => (false, r.setStatus status)
  | .addField name value => (false, r.addField name value)
  | .setField name value => (false, r.setField name value)
  | .write bytes => (false, r.write bytes)
  | .setBody bytes => (false, r.setBody bytes)
  | .send status contentType body => r.send status contentType body
  | .commit => r.commit
  | .setKeepAlive keepAlive => (false, r.setKeepAlive keepAlive)

/-- The response after steps in order. -/
def applyAll (r : Response) (ops : List Op) : Response := ops.foldl (fun r op => (r.apply op).2) r

/-- Some steps lead from `r` to `s`. -/
def Evolves (r s : Response) : Prop := ∃ ops, r.applyAll ops = s

@[simp] theorem Evolves.refl (r : Response) : Evolves r r := ⟨[], rfl⟩

theorem Evolves.trans {r s t : Response} (h : Evolves r s) (k : Evolves s t) : Evolves r t := by
  obtain ⟨a, rfl⟩ := h
  obtain ⟨b, rfl⟩ := k
  exact ⟨a ++ b, by simp [applyAll, List.foldl_append]⟩

@[simp] theorem evolves_apply (r : Response) (op : Op) : Evolves r (r.apply op).2 := ⟨[op], rfl⟩

end Response

end HttpDispatch
