import HttpDispatch.Message.Request
import HttpDispatch.Routing.Template

/-!
# Mappings

A mapping says which requests a route is for: by a path template, by methods, by the media types
that it reads and by those that it writes. What a mapping does not mention does not matter.
-/

namespace HttpDispatch

/-- Which requests a route is for. -/
structure Mapping where
  template : Template
  methods : List Method
  consumes : List MediaType
  produces : List MediaType
  deriving DecidableEq, Repr

namespace Mapping

/-- Every request whose path a template matches. -/
def of (path : String) : Mapping := ⟨.ofText path, [], [], []⟩

/-- One more method, unless it is there already. -/
def withMethod (m : Mapping) (method : Method) : Mapping :=
  if method ∈ m.methods then m else { m with methods := m.methods ++ [method] }

/-- One more media type that is read. -/
def reading (m : Mapping) (t : MediaType) : Mapping := { m with consumes := m.consumes ++ [t] }

/-- One more media type that is written. -/
def writing (m : Mapping) (t : MediaType) : Mapping := { m with produces := m.produces ++ [t] }

variable (m : Mapping) (r : Request)

/-- The method is one of the mapping's. -/
def allowsMethod : Bool := m.methods.isEmpty || m.methods.contains r.method

/-- The body, of unknown type unless the request says what it is, is of a media type that is
read. -/
def readsBody : Bool :=
  m.consumes.isEmpty || m.consumes.any (·.includes (r.contentType?.getD .octetStream))

/-- Some media type that is written is one that the client accepts. -/
def isAcceptable : Bool :=
  m.produces.isEmpty || r.accepted.any fun a => m.produces.any (·.compatible a)

/-- The path variables of the request, if the mapping is for it. -/
def capture : Option Variables :=
  if m.allowsMethod r then
    (m.template.capture r.path).filter fun _ => m.readsBody r && m.isAcceptable r
  else none

/-- The number of media types that are mentioned. -/
def mediaTypes : Nat := m.consumes.length + m.produces.length

/-- The mapping in short. -/
def render : String :=
  (if m.methods.isEmpty then "*" else "|".intercalate (m.methods.map Method.name)) ++ " " ++
    m.template.text

/-- The rank of a mapping: that of its template, then what mentions more media types. -/
def rank : List Int := m.template.rank ++ [-(m.mediaTypes : Int)]

end Mapping

end HttpDispatch
