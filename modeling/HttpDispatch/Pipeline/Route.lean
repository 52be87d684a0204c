import HttpDispatch.Binding.Wiring
import HttpDispatch.Routing.Table

/-!
# Routes, filters and error handlers

The parts that an application hands to a dispatcher. A route says which requests it is for and what
answers them, and may have its own say in failures and completion. Filters act around everything
else. Error handlers turn failures into responses.
-/

namespace HttpDispatch

/-- What a handler leaves behind that finishes later: acts that each may signal and go on by
themselves, and how many others may still signal. -/
structure Plan (σ : Type) where
  jobs : List (Act σ Unit)
  held : Nat

/-- What answers the requests of a route. -/
inductive Action (σ : Type) where
  /-- Nothing; the response is sent as it is. -/
  | none
  /-- An act that is over when it returns. -/
  | now (act : Request → Attempt σ Unit)
  /-- An act whose result is signalled, now or later. -/
  | later (act : Request → Act σ (Plan σ))
  /-- A handler with parameters. -/
  | handler (h : Handler σ)

/-- A route: which requests it is for, what answers them, and what is called on a failure and in
the end. -/
structure Route (σ : Type) where
  mapping : Mapping
  action : Action σ
  onError : Option (Request → Failure → Attempt σ Unit)
  onComplete : Option (Request → Option Failure → Attempt σ Unit)

variable {σ : Type}

/-- An action in short, for diagnostics; a handler shows whether it has been bound. -/
def Action.inspect (bound : Bool) : Action σ → String
  | .none => "Noop"
  | .now _ => "Sync"
  | .later _ => "Async"
  | .handler h =>
    "Method(HandlerExecution \x7b method: " ++ h.inspect ++ ", bound: " ++ toString bound ++ " \x7d)"

/-- A route in short, for diagnostics. -/
def Route.inspect (bound : Bool) (r : Route σ) : String :=
  "Route \x7b mapping: " ++ Text.quoted r.mapping.render ++ ", handler: " ++
    r.action.inspect bound ++ ", on_error: " ++ toString r.onError.isSome ++ ", on_complete: " ++
    toString r.onComplete.isSome ++ " \x7d"

/-- How a filter goes on after its first act: it answers the request itself, or passes it on and
acts again on what comes back. -/
inductive Entry (σ : Type) where
  | answer (error : Option Failure)
  | passOn (leave : Option Failure → Act σ (Option Failure))

/-- Acts around the handling of every request. -/
structure Filter (σ : Type) where
  order : Int
  enter : Request → Act σ (Entry σ)

/-- Acts on failures; true if the failure is dealt with. -/
structure ErrorHandler (σ : Type) where
  order : Int
  handle : Request → Failure → Act σ Bool

end HttpDispatch
