import HttpDispatch.Binding.Fallback

/-!
# Resolvers

A `Resolver` finds the argument for a parameter in a request. Resolvers are made by factories when
a handler is bound; a factory takes some parameters and not others. The built-in factories read
named values (query, header, path, cookie, form), files, bodies, and the request and the response
themselves.
-/

namespace HttpDispatch

variable {σ : Type}

/-- Finds an argument in a request. -/
abbrev Resolver (σ : Type) := Request → Attempt σ Arg

/-- Makes resolvers for the parameters that it supports; making one may change the state of the
application. -/
structure Factory (σ : Type) where
  order : Int
  supports : Param σ → Bool
  create : Param σ → Codecs → σ → Except BindFault (Resolver σ) × σ

namespace Factory

/-- A factory that leaves the state of the application alone. -/
def pure (order : Int) (supports : Param σ → Bool)
    (create : Param σ → Codecs → Except BindFault (Resolver σ)) : Factory σ :=
  ⟨order, supports, fun p codecs app => (create p codecs, app)⟩

end Factory

/-- The result of a computation without steps as an attempt. -/
def Attempt.ofExcept {α : Type} (e : Except Failure α) : Attempt σ α := ExceptT.mk (.done e)

/-! ### The request and the response -/

/-- The request or the response themselves. -/
def injectedFactory : Factory σ :=
  .pure firstOrder
    (fun p =>
      match p.type with
      | .request => true
      | .response => true
      | _ => false)
    fun p _ =>
      match p.type with
      | .response => .ok fun _ => Attempt.ofExcept (.ok .response)
      | _ => .ok fun r => Attempt.ofExcept (.ok (.request r))

/-! ### Named values -/

/-- The values that a form gives to a name; a form that cannot be read is the client's fault. -/
def formValues (r : Request) (name : String) : Except Failure (List String) :=
  match r.form with
  | .ok form => .ok (form.values name)
  | .error f => .error (.badRequest s!"malformed form body: {f.message}")

/-- The values that a source gives to a name; a header that makes up a list is cut into elements. -/
def valuesIn (source : Source) (isList : Bool) (name : String) (r : Request)
    (pathVars : Option Variables) : Except Failure (List String) :=
  match source with
  | .query => .ok (r.queryParams name)
  | .header => .ok (if isList then r.fields.elements name else r.fields.getAll name)
  | .path => .ok (pathVars.bind (·.get? name)).toList
  | .cookie => .ok (r.cookie? name).toList
  | _ => formValues r name

/-- The argument that values denote, or the fallback if there are none. -/
def convertOr (type : ParamType σ) (fallback : Fallback) (values : List String) :
    Except Failure Arg :=
  if values.isEmpty then fallback.absent
  else
    (type.convert values).mapError fun reason =>
      .badRequest s!"failed to convert value of '{fallback.name}': {reason}"

/-- The type is a list of scalars. -/
def ParamType.isList : ParamType σ → Bool
  | .list _ => true
  | _ => false

/-- The argument that a source of named values gives. -/
def resolveNamed (source : Source) (type : ParamType σ) (fallback : Fallback) : Resolver σ :=
  fun r => do
    let notes ← ExceptT.lift Act.notes
    let values ← Attempt.ofExcept (valuesIn source type.isList fallback.name r notes.pathVars)
    Attempt.ofExcept (convertOr type fallback values)

/-- The sources whose parameters a factory of named values takes. -/
def feeds (source : Source) : List Source :=
  match source with
  | .form => [.form, .part]
  | source => [source]

/-- Named values of a source. -/
def namedFactory (source : Source) : Factory σ :=
  .pure 0 (fun p => (feeds source).contains p.source && p.type.isTextual) fun p _ => do
    return resolveNamed source p.type (← Fallback.ofParam p)

/-! ### Files -/

/-- The files of a form under a name; a form that cannot be read is the client's fault. -/
def formFiles (r : Request) (name : String) : Except Failure (List File) :=
  match r.form with
  | .ok form => .ok (form.filesOf name)
  | .error f => .error (.badRequest s!"malformed multipart body: {f.message}")

/-- One file or all of them. -/
def filesOr (many : Bool) (fallback : Fallback) (files : List File) : Except Failure Arg :=
  match files with
  | [] => fallback.absent
  | f :: _ => .ok (if many then .ofFiles files else .file f)

/-- Files of a form. -/
def fileFactory : Factory σ :=
  .pure 0
    (fun p =>
      (p.source == .part || p.source == .form) &&
        match p.type with
        | .file => true
        | .files => true
        | _ => false)
    fun p _ => do
      let fallback ← Fallback.ofParam p
      let many := match p.type with
        | .files => true
        | _ => false
      return fun r => Attempt.ofExcept do filesOr many fallback (← formFiles r fallback.name)

/-! ### Bodies -/

/-- The argument that a body without structure is. -/
def plainBody (type : ParamType σ) (fallback : Fallback) (body : Bytes) : Except Failure Arg :=
  if body.isEmpty then fallback.absent
  else
    match type with
    | .bytes => .ok (.bytes body)
    | type =>
      match Utf8.decode body with
      | .error f => .error (.badRequest s!"request body is not valid UTF-8: {f.message}")
      | .ok text =>
        (type.convert [text]).mapError fun reason =>
          .badRequest s!"failed to convert request body: {reason}"

/-- The failure of a body that does not denote an entity. -/
def malformedBody (f : CodecFault) : Failure := .badRequest s!"malformed request body: {f.message}"

/-- The entity that the body of a request denotes, read by the first codec that can. -/
def entityBody (e : EntityType) (codecs : Codecs) (fallback : Fallback) (r : Request) :
    Except Failure Arg :=
  if r.body.isEmpty then fallback.absent
  else
    let m := r.contentType?.getD .json
    match codecs.reader? m e with
    | none =>
      .error (.unsupportedMediaType
        s!"content type '{m.essence}' is not supported for {e.simpleName}")
    | some codec => do
      let v ← (codec.decode r.body e).mapError malformedBody
      (e.decode v).mapError malformedBody

/-- Bodies, as text, as bytes or as entities. -/
def bodyFactory : Factory σ :=
  .pure 0
    (fun p =>
      p.source == .body &&
        match p.type with
        | .entity _ => true
        | type => type.isTextual)
    fun p codecs => do
      let fallback ← Fallback.ofParam p
      match p.type with
      | .entity e =>
        if e.isReadable then
          return fun r => Attempt.ofExcept (entityBody e codecs fallback r)
        else .error (.unreadableEntity p.name e.name)
      | type => return fun r => Attempt.ofExcept (plainBody type fallback r.body)

/-- The built-in factories in the order in which they are entered. -/
def defaultFactories : List (Factory σ) :=
  [injectedFactory, namedFactory .path, namedFactory .query, namedFactory .header,
    namedFactory .cookie, fileFactory, namedFactory .form, bodyFactory]

end HttpDispatch
