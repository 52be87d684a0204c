import HttpDispatch.Binding.Param

/-!
# Handlers

A handler is a method of a controller: it has parameters, works with one argument for each, and
gives a `Reply`. `Handler.invoke` calls it; arguments that it cannot use make a bad request, with a
message that shows what it was called with.
-/

namespace HttpDispatch

/-- What a handler gives back. -/
inductive Reply where
  | nothing
  | text (s : String)
  | bytes (data : Bytes)
  | scalar (s : String)
  | entity (e : EntityType) (v : Json.Value)
  | written

namespace Reply

/-- The reply needs no codec. -/
def isSelfDescribing : Reply → Bool
  | entity _ _ => false
  | _ => true

/-- An entity of a type of the given name, unless it could not be turned into JSON. -/
def ofCapture (typeName : String) (v : Except Json.Fault Json.Value) : Except CallFault Reply :=
  match v with
  | .ok v => .ok (.entity (.ofName typeName) v)
  | .error f => .error (.failed (.internal s!"failed to capture {typeName}: {f.message}"))

/-- An argument as an entity. -/
def ofArg (a : Arg) : Reply := .entity (.ofName a.typeName) a.capture

end Reply

/-- A handler of requests. -/
structure Handler (σ : Type) where
  controller : String
  name : String
  params : List (Param σ)
  returns : String
  codec : Option String
  call : Request → Args → Call σ Reply

namespace Handler

variable {σ : Type} (h : Handler σ)

/-- Controller and name. -/
def render : String := h.controller ++ "#" ++ h.name

/-- The name with the types of the parameters and of what is given back. -/
def signature : String :=
  h.name ++ "(" ++ ", ".intercalate (h.params.map (·.type.signature)) ++ ") -> " ++ h.returns

/-- The handler in short, for diagnostics. -/
def inspect : String :=
  "HandlerMethod \x7b controller: " ++ Text.quoted h.controller ++ ", name: " ++
    Text.quoted h.name ++ ", params: [" ++ ", ".intercalate (h.params.map ParamOf.inspect) ++
    "], serializer: " ++ Text.quotedOption h.codec ++ " \x7d"

/-- One argument in a report. -/
def reportArg (index : Nat) (a : Arg) : String :=
  match a.typeName? with
  | none => s!"[{index}] [null] \n"
  | some name => s!"[{index}] [type={name}]\n"

/-- What went wrong with the arguments, and with which call. -/
def report (fault : ArgFault) (args : Args) : String :=
  s!"{fault.message}\nHandlerMethod details: \nController [{h.controller}]\n" ++
    s!"Method [{h.signature}]\nResolved arguments: \n" ++ String.join (args.mapIdx reportArg)

/-- The failure that a fault of the call is. -/
def failure (args : Args) : CallFault → Failure
  | .mismatch fault => .badRequest (h.report fault args)
  | .failed f => f

/-- Calls the handler. -/
def invoke (r : Request) (args : Args) : Attempt σ Reply :=
  ExceptT.mk ((h.call r args).run.bind fun result => .done (result.mapError (h.failure args)))

end Handler

end HttpDispatch
