import HttpDispatch.Pipeline.Exchange

/-!
# A dispatcher at work

A `Service` is a dispatcher with the state that its requests share, the exchanges that were ever
opened, by their numbers, and how many of them it has rejected. `Service.start` has an exchange
served as far as that can go at once; `Service.signal` reaches a run that waits.
-/

namespace HttpDispatch

/-- A dispatcher with its state and its exchanges. -/
structure Service (σ : Type) where
  dispatcher : Dispatcher σ
  hub : Hub σ
  rejected : Nat
  exchanges : List (Exchange σ)

namespace Service

variable {σ α : Type}

/-- A dispatcher that has not served anything. -/
def of (dispatcher : Dispatcher σ) (app : σ) : Service σ := ⟨dispatcher, ⟨app, []⟩, 0, []⟩

variable (s : Service σ)

/-- Changes the state of the application. -/
def withApp (change : σ → σ) : Service σ := { s with hub.app := change s.hub.app }

/-- One more route. -/
def addRoute (r : Route σ) : Service σ := { s with dispatcher := s.dispatcher.addRoute r }

/-- The number that the next exchange has. -/
def next : Nat := s.exchanges.length

/-- Opens an exchange for a request. -/
def submit (request : Request) : Service σ :=
  { s with exchanges := s.exchanges ++ [{ id := s.next, request }] }

/-- Changes the exchange of a number, and the shared state with it. -/
def on (id : Nat) (change : Exchange σ → Hub σ → Exchange σ × Hub σ) : Service σ :=
  match s.exchanges[id]? with
  | none => s
  | some e =>
    let (e, hub) := change e s.hub
    { s with hub, exchanges := s.exchanges.set id e }

/-- Has an exchange go on as far as it can. -/
def settle (id : Nat) : Service σ := s.on id Exchange.settle

/-- Begins a run of an exchange and has it go on as far as it can. -/
def start (id : Nat) : Service σ := (s.on id fun e hub => e.start s.dispatcher hub).settle id

/-- Carries out an act of the application on an exchange. -/
def touch (id : Nat) (a : Act σ α) : Service σ := s.on id fun e hub => e.touch a hub

/-- Signals a verdict to a run: whether it had one before, and whether this is the first. -/
def signal (t : Ticket) (v : Verdict) : (Bool × Bool) × Service σ :=
  match s.exchanges[t.exchange]?.bind (·.signal? t.run) with
  | none => ((true, false), s)
  | some p =>
    let (first, p') := p.complete v
    ((p.isDone, first), s.on t.exchange fun e hub => (e.withSignal t.run fun _ => p', hub))

/-- Drops a handle to the signal of a run. -/
def drop (t : Ticket) : Service σ :=
  s.on t.exchange fun e hub => (e.withSignal t.run Promise.drop, hub)

/-- Rejects an exchange. -/
def reject (id : Nat) (reason : String) : Service σ :=
  { s.on id fun e hub => (e.reject reason, hub) with rejected := s.rejected + 1 }

/-- Ends an exchange because the server goes down. -/
def abandon (id : Nat) : Service σ := s.on id fun e hub => (e.abandon, hub)

/-- Ends an exchange if one of its runs has crashed. -/
def bury (id : Nat) : Service σ :=
  s.on id fun e hub => (if e.runs.any Run.isCrashed then e.bury else e, hub)

/-- The dispatcher in short, for diagnostics. -/
def inspect : String := s.dispatcher.inspect s.rejected

/-- The routes in short, for diagnostics. -/
def inspectRoutes : List String := s.dispatcher.routes.mapIdx s.hub.inspectRoute

end Service

end HttpDispatch
