import HttpDispatch.Pipeline.ErrorBody
import HttpDispatch.Pipeline.Route

/-!
# The dispatcher

A dispatcher leads a request through the filters to the route that is selected for it, has the
route answer it, deals with failures, and commits the response. `Dispatcher.service` is the whole
way as an act; it ends with the failure that is left, if one is, or stops where the answer is
signalled later (`Progress`).

Handlers are bound when their route is first used. Which are bound is part of the state `Hub`, next
to the state of the application.
-/

namespace HttpDispatch

/-- The state that all requests share: that of the application, and the handlers that are bound, by
the places of their routes. -/
structure Hub (σ : Type) where
  app : σ
  bound : List (Nat × Bound σ)

variable {σ α : Type}

/-- An act of the application as an act on the shared state. -/
def Act.inHub (a : Act σ α) : Act (Hub σ) α := a.through Hub.app fun app hub => { hub with app }

/-- An attempt of the application as an attempt on the shared state. -/
def Attempt.inHub (a : Attempt σ α) : Attempt (Hub σ) α := ExceptT.mk a.run.inHub

/-- Where a request stands: at its end with the failure that is left, or waiting for a verdict. -/
inductive Stage (σ : Type) where
  | finished (error : Option Failure)
  | waiting (resume : Verdict → Act σ (Option Failure))

/-- Where a request stands, and what goes on beside it. -/
structure Progress (σ : Type) where
  jobs : List (Act σ Unit)
  stage : Stage σ

namespace Progress

/-- At its end. -/
def finished (error : Option Failure) : Progress σ := ⟨[], .finished error⟩

/-- Acts on the failure that is left, at the end. -/
def andThen (p : Progress σ) (f : Option Failure → Act σ (Option Failure)) : Act σ (Progress σ) :=
  match p.stage with
  | .finished error => do return ⟨p.jobs, .finished (← f error)⟩
  | .waiting resume => return ⟨p.jobs, .waiting fun v => do f (← resume v)⟩

end Progress

/-- Why the answer of a route has failed: its handler could not be bound, or anything later. -/
inductive Fault where
  | binding (f : BindFault)
  | failed (f : Failure)

/-- The failure of a fault. -/
def Fault.failure : Fault → Failure
  | .binding f => f.failure
  | .failed f => f

/-- What the action of a route has come to: a result, or waiting for a verdict; in either case with
what goes on beside it. -/
inductive Outturn (σ : Type) where
  | settled (jobs : List (Act σ Unit)) (result : Except Fault Unit)
  | waiting (jobs : List (Act σ Unit))

/-- What leads requests to routes. -/
structure Dispatcher (σ : Type) where
  routes : List (Route σ)
  wiring : Wiring σ
  filters : List (Filter σ)
  errorHandlers : List (ErrorHandler σ)

/-- The failure of a request whose handler can no longer signal. -/
def abandoned : Failure := .internal "async handler dropped its completer without signalling"

/-- The error handler that deals with every failure: it sends an error body. -/
def defaultErrorHandler (withCauses : Bool) : ErrorHandler σ where
  order := lastOrder
  handle r f := do
    Act.edit (ErrorBody.ofFailure f r.path withCauses).send
    return true

namespace Dispatcher

/-- A dispatcher without routes; the lists are put in ascending order, the default error handler
behind all others of its order. -/
def of (wiring : Wiring σ) (filters : List (Filter σ)) (errorHandlers : List (ErrorHandler σ))
    (withCauses : Bool) : Dispatcher σ where
  routes := []
  wiring := wiring
  filters := byOrder Filter.order filters
  errorHandlers := byOrder ErrorHandler.order (errorHandlers ++ [defaultErrorHandler withCauses])

/-- One more route, after all others. -/
def addRoute (d : Dispatcher σ) (r : Route σ) : Dispatcher σ := { d with routes := d.routes ++ [r] }

variable (d : Dispatcher σ) (r : Request)

/-! ### Failures -/

/-- Has the error handlers act on a failure, up to the first that deals with it. -/
def rescue (f : Failure) : List (ErrorHandler σ) → Act σ Unit
  | [] => return ()
  | h :: rest => do
    if ← h.handle r f then return () else rescue f rest

/-- Deals with a failure. -/
def handleFailure (f : Failure) : Act (Hub σ) Unit := (rescue r f d.errorHandlers).inHub

/-- The failure that a route leaves of a failure: none if it takes care of it, another one if it
fails itself. -/
def reconsider (route : Route σ) (f : Failure) : Act (Hub σ) (Option Failure) :=
  match route.onError with
  | none => return some f
  | some callback => do
    match ← (callback r f).inHub.run with
    | .ok () => return none
    | .error f => return some f

/-! ### Actions -/

/-- The resolvers of a handler, made now if they have not been made before. -/
def bindHandler (index : Nat) (h : Handler σ) : ExceptT BindFault (Act (Hub σ)) (Bound σ) :=
  ExceptT.mk <| Act.withApp fun hub =>
    match hub.bound.lookup index with
    | some b => (.ok b, hub)
    | none =>
      match (d.wiring.bind h).run hub.app with
      | (.ok b, app) => (.ok b, ⟨app, hub.bound ++ [(index, b)]⟩)
      | (.error f, app) => (.error f, { hub with app })

/-- Adds what a reply comes to to the response; a content type that is there stays. -/
def deliver : Payload → Act σ Unit
  | .body contentType data => do
    let response ← Act.response
    if !response.hasContentType then Act.edit (.setField "Content-Type" contentType.render)
    Act.edit (.setBody data)
  | _ => return ()

/-- Answers a request by a handler that is bound. -/
def call (h : Handler σ) (b : Bound σ) : Attempt σ Unit := do
  let args ← resolveAll b.args r
  let reply ← h.invoke r args
  ExceptT.lift (deliver (← b.reply reply r))

/-- Answers a request by a handler. -/
def execute (index : Nat) (h : Handler σ) : Act (Hub σ) (Except Fault Unit) := do
  match ← (d.bindHandler index h).run with
  | .error f => return .error (.binding f)
  | .ok b => return ((← (call r h b).inHub.run).mapError .failed)

/-- The result that a verdict is. -/
def ofVerdict (v : Verdict) : Except Fault Unit := v.mapError .failed

/-- Starts an act whose result is signalled: it is settled if that has happened already or can no
longer happen. -/
def begin (act : Request → Act σ (Plan σ)) : Act (Hub σ) (Outturn (Hub σ)) := do
  Act.handles fun _ => .new
  let plan ← (act r).inHub
  let jobs := plan.jobs.map Act.inHub
  Act.handles fun p => { p with handles := plan.held + jobs.length }
  match (← Act.notes).signal.poll with
  | none => return .waiting jobs
  | some v => return .settled jobs (ofVerdict (v.getD (.error abandoned)))

/-- Carries out the action of a route. -/
def act (index : Nat) : Action σ → Act (Hub σ) (Outturn (Hub σ))
  | .none => return .settled [] (.ok ())
  | .now f => do return .settled [] ((← (f r).inHub.run).mapError .failed)
  | .later f => begin r f
  | .handler h => do return .settled [] (← d.execute r index h)

/-! ### The whole way -/

/-- The failure that is left of the result of a route: the route has its say unless its handler
could not be bound. -/
def remaining (route : Route σ) : Except Fault Unit → Act (Hub σ) (Option Failure)
  | .ok () => return none
  | .error (.binding f) => return some f.failure
  | .error (.failed f) => reconsider r route f

/-- Ends a request with the result of its route. -/
def conclude (route : Route σ) (result : Except Fault Unit) : Act (Hub σ) (Option Failure) := do
  let error ← remaining r route result
  match error with
  | some f => d.handleFailure r f
  | none => pure ()
  Act.edit .commit
  match route.onComplete with
  | some callback => let _ ← (callback r error).inHub.run
  | none => pure ()
  return error

/-- The failure of a request that no route is for. -/
def noRoute : Failure := .notFound s!"no route for {r.method.name} {r.path}"

/-- Leads a request to its route. -/
def process : Act (Hub σ) (Progress (Hub σ)) := do
  match select Route.mapping r d.routes with
  | none =>
    d.handleFailure r (noRoute r)
    Act.edit .commit
    return .finished (some (noRoute r))
  | some s =>
    let _ ← Act.bindVariables s.pathVars
    match ← d.act r s.index s.entry.action with
    | .settled jobs result => return ⟨jobs, .finished (← d.conclude r s.entry result)⟩
    | .waiting jobs => return ⟨jobs, .waiting fun v => d.conclude r s.entry (ofVerdict v)⟩

/-- Leads a request through filters. -/
def pass : List (Filter σ) → Act (Hub σ) (Progress (Hub σ))
  | [] => d.process r
  | f :: rest => do
    match ← (f.enter r).inHub with
    | .answer error => return .finished error
    | .passOn leave => (← pass rest).andThen fun error => (leave error).inHub

/-- Commits the response if that has not happened, after dealing with the failure that is left. -/
def close (error : Option Failure) : Act (Hub σ) (Option Failure) := do
  if !(← Act.response).committed then
    match error with
    | some f => d.handleFailure r f
    | none => pure ()
    Act.edit .commit
  return error

/-- The whole way of a request. -/
def service : Act (Hub σ) (Progress (Hub σ)) := do
  (← d.pass r d.filters).andThen (d.close r)

/-- The dispatcher in short, for diagnostics. -/
def inspect (rejected : Nat) : String :=
  "Dispatcher \x7b routes: RouteRegistry \x7b routes: " ++ toString d.routes.length ++
    " \x7d, resolvers: " ++ d.wiring.inspect ++ ", filters: " ++ toString d.filters.length ++
    ", exception_handlers: " ++ toString d.errorHandlers.length ++
    ", rejected: " ++ toString rejected ++ " \x7d"

end Dispatcher

/-- The route at a place in short, for diagnostics. -/
def Hub.inspectRoute (hub : Hub σ) (index : Nat) (route : Route σ) : String :=
  route.inspect (hub.bound.lookup index).isSome

end HttpDispatch
