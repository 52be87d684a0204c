import HttpDispatch.Pipeline.Dispatcher

/-!
# Exchanges

An exchange is a request with the response that is written for it, what is noted about it, and a
promise of the outcome. A run leads an exchange through a dispatcher; it may stop where the answer
is signalled later, and an exchange may have several runs. `Exchange.start` begins a run,
`Exchange.withSignal` lets a verdict reach one, and `Exchange.settle` has all runs go on as far as
they can.

The first run that gets to its end completes the promise. An exchange can also be ended from
outside: it is rejected, or it is answered because the server goes down.
-/

namespace HttpDispatch

/-- How an exchange ended: the status of its response then, and the failure that was left. -/
structure Outcome where
  status : Status
  error : Option Failure
  deriving DecidableEq, Repr

/-- How far a run has come. -/
inductive RunState (σ : Type) where
  | waiting (resume : Verdict → Act (Hub σ) (Option Failure))
  | over
  | crashed

/-- A way of an exchange through a dispatcher. -/
structure Run (σ : Type) where
  signal : Promise Verdict
  jobs : List (Act (Hub σ) Unit)
  state : RunState σ

/-- The run ended without a result. -/
def Run.isCrashed {σ : Type} (run : Run σ) : Bool :=
  match run.state with
  | .crashed => true
  | _ => false

/-- A request on its way. -/
structure Exchange (σ : Type) where
  id : Nat
  request : Request
  response : Response := {}
  attributes : Attributes := .empty
  pathVars : Option Variables := none
  promise : Promise Outcome := .new
  runs : List (Run σ) := []

namespace Exchange

variable {σ α : Type} (e : Exchange σ)

/-- The outcome is known. -/
def isDone : Bool := e.promise.isDone

/-- Carries out an act as part of the run at a place, which has the given signal: the result, none
if the act crashed, the signal, the exchange and the shared state afterwards. -/
def perform (a : Act (Hub σ) α) (place : Nat) (signal : Promise Verdict) (hub : Hub σ) :
    Option α × Promise Verdict × Exchange σ × Hub σ :=
  let notes : Notes (Hub σ) := ⟨⟨e.id, place⟩, e.attributes, e.pathVars, signal, hub⟩
  let (result, s) := a.run ⟨e.response, notes⟩
  let e := { e with
    response := s.response, attributes := s.notes.attributes, pathVars := s.notes.pathVars }
  (result, s.notes.signal, e, s.notes.app)

/-- Carries out an act of the application that belongs to no run. -/
def touch (a : Act σ α) (hub : Hub σ) : Exchange σ × Hub σ :=
  (e.perform a.inHub e.runs.length .closed hub).2.2

/-- Completes the promise with the status as it is, unless it is completed. -/
def finish (error : Option Failure) : Exchange σ :=
  { e with promise := (e.promise.complete ⟨e.response.status, error⟩).2 }

/-- One more run. -/
def addRun (run : Run σ) : Exchange σ := { e with runs := e.runs ++ [run] }

/-- Begins a run. -/
def start (d : Dispatcher σ) (hub : Hub σ) : Exchange σ × Hub σ :=
  match e.perform (d.service e.request) e.runs.length .closed hub with
  | (none, signal, e, hub) => (e.addRun ⟨signal, [], .crashed⟩, hub)
  | (some ⟨jobs, .waiting resume⟩, signal, e, hub) => (e.addRun ⟨signal, jobs, .waiting resume⟩, hub)
  | (some ⟨jobs, .finished error⟩, signal, e, hub) =>
    ((e.finish error).addRun ⟨signal, jobs, .over⟩, hub)

/-! ### Going on -/

/-- Carries out what goes on beside the run at a place; each act drops its handle in the end. -/
def runJobs (place : Nat) : List (Act (Hub σ) Unit) → Promise Verdict → Exchange σ → Hub σ →
    Promise Verdict × Exchange σ × Hub σ
  | [], signal, e, hub => (signal, e, hub)
  | job :: rest, signal, e, hub =>
    let (_, signal, e, hub) := e.perform job place signal hub
    runJobs place rest signal.drop e hub

/-- Goes on with the run at a place if what it waits for is decided. -/
def wake (place : Nat) (run : Run σ) (hub : Hub σ) : Run σ × Exchange σ × Hub σ :=
  match run.state, run.signal.poll with
  | .waiting resume, some v =>
    match e.perform (resume (v.getD (.error abandoned))) place run.signal hub with
    | (some error, signal, e, hub) => ({ run with signal, state := .over }, e.finish error, hub)
    | (none, signal, e, hub) => ({ run with signal, state := .crashed }, e, hub)
  | _, _ => (run, e, hub)

/-- Has the run at a place go on as far as it can. -/
def settleRun (place : Nat) (run : Run σ) (hub : Hub σ) : Run σ × Exchange σ × Hub σ :=
  let (signal, e, hub) := runJobs place run.jobs run.signal e hub
  e.wake place { run with signal, jobs := [] } hub

/-- Has runs, the first at a place and the others behind it, go on as far as they can. -/
def settleRuns (place : Nat) : List (Run σ) → Exchange σ → Hub σ →
    List (Run σ) × Exchange σ × Hub σ
  | [], e, hub => ([], e, hub)
  | run :: rest, e, hub =>
    let (run, e, hub) := e.settleRun place run hub
    let (rest, e, hub) := settleRuns (place + 1) rest e hub
    (run :: rest, e, hub)

/-- Has all runs go on as far as they can. -/
def settle (hub : Hub σ) : Exchange σ × Hub σ :=
  let (runs, e, hub) := settleRuns 0 e.runs e hub
  ({ e with runs }, hub)

/-- Changes the signal of the run at a place. -/
def withSignal (place : Nat) (change : Promise Verdict → Promise Verdict) : Exchange σ :=
  { e with runs := e.runs.modify place fun run => { run with signal := change run.signal } }

/-- The signal of the run at a place. -/
def signal? (place : Nat) : Option (Promise Verdict) := e.runs[place]?.map (·.signal)

/-! ### Ends from outside -/

/-- Sends an error body, if the response is not committed, and ends the exchange with a failure. -/
def terminate (f : Failure) : Exchange σ :=
  let body := ErrorBody.ofFailure f e.request.path false
  { e with response := (e.response.apply body.send).2 }.finish (some f)

/-- Ends an exchange for which there is no room. -/
def reject (reason : String) : Exchange σ :=
  e.terminate (.tooManyRequests s!"request rejected: {reason}")

/-- Ends an exchange because the server goes down, unless it has ended. -/
def abandon : Exchange σ :=
  if e.isDone then e else e.terminate (.unavailable "server is shutting down")

/-- The failure of an exchange whose run has crashed. -/
def crash : Failure := .internal "request processing failed"

/-- Ends an exchange whose run has crashed. -/
def bury : Exchange σ :=
  let (_, response) := e.response.send crash.answer none (Utf8.encode crash.message)
  { e with response }.finish (some crash)

end Exchange

end HttpDispatch
