import HttpDispatch.Message.Response
import HttpDispatch.Routing.Variables
import HttpDispatch.Work.Attributes
import HttpDispatch.Work.Failure
import HttpDispatch.Work.Promise

/-!
# Acts

What the parts of an application do while a request is handled. An `Act` is a tree of single steps:
it looks at the response, takes a step in writing it, or notes something, and goes on according to
the answer; in the end it is done with a result or has crashed. `Act.run` takes the steps one after
the other in a `Scene`, that is the response and the notes; whatever the act, the response evolves
by steps (`evolves_run`).

Acts are a monad. An act over one kind of application state becomes one over a larger state by
`Act.through`.
-/

namespace HttpDispatch

/-- What a handler signals that finishes later: success or a failure. -/
abbrev Verdict := Except Failure Unit

/-- Which exchange an act belongs to, and which of its runs; who keeps it can signal to that run
later. -/
structure Ticket where
  exchange : Nat
  run : Nat
  deriving DecidableEq, Repr

/-- What is noted about a request beside its response; `app` is the state of the application, which
is not bound to the request. -/
structure Notes (σ : Type) where
  ticket : Ticket
  attributes : Attributes
  pathVars : Option Variables
  signal : Promise Verdict
  app : σ

/-- The response of a request and what is noted. -/
structure Scene (σ : Type) where
  response : Response
  notes : Notes σ

variable {σ τ α β : Type}

/-- The same notes beside another state of the application. -/
def Notes.withApp (n : Notes σ) (app : τ) : Notes τ :=
  ⟨n.ticket, n.attributes, n.pathVars, n.signal, app⟩

/-- Steps on a scene with a result in the end. -/
inductive Act (σ α : Type) where
  /-- The act is over. -/
  | done (a : α)
  /-- The act ends without a result. -/
  | crash
  /-- Looks at the response. -/
  | look (next : Response → Act σ α)
  /-- Takes a step in writing the response; the answer is true if that committed it. -/
  | write (op : Response.Op) (next : Bool → Act σ α)
  /-- Changes the notes; the answer is the notes as they were before. -/
  | note (change : Notes σ → Notes σ) (next : Notes σ → Act σ α)

namespace Act

/-- Goes on with the result of an act. -/
def bind : Act σ α → (α → Act σ β) → Act σ β
  | done a, f => f a
  | crash, _ => crash
  | look next, f => look fun r => (next r).bind f
  | write op next, f => write op fun b => (next b).bind f
  | note change next, f => note change fun n => (next n).bind f

instance : Monad (Act σ) where
  pure := done
  bind := bind

/-- Takes the steps of an act: the result, none if it crashed, and the scene afterwards. -/
def run : Act σ α → Scene σ → Option α × Scene σ
  | done a, s => (some a, s)
  | crash, s => (none, s)
  | look next, s => (next s.response).run s
  | write op next, s =>
    let (b, response) := s.response.apply op
    (next b).run { s with response }
  | note change next, s => (next s.notes).run { s with notes := change s.notes }

theorem evolves_run (a : Act σ α) (s : Scene σ) : s.response.Evolves (a.run s).2.response := by
  induction a generalizing s with
  | done a => exact .refl _
  | crash => exact .refl _
  | look next ih => exact ih _ _
  | write op next ih =>
    exact .trans (Response.evolves_apply s.response op)
      (ih _ { s with response := (s.response.apply op).2 })
  | note change next ih => exact ih _ { s with notes := change s.notes }

theorem run_bind (a : Act σ α) (f : α → Act σ β) (s : Scene σ) :
    (a.bind f).run s =
      match a.run s with
      | (some x, s) => (f x).run s
      | (none, s) => (none, s) := by
  induction a generalizing s with
  | done a => rfl
  | crash => rfl
  | look next ih => exact ih _ _
  | write op next ih => exact ih _ _
  | note change next ih => exact ih _ _

/-- The same act where the application state is part of a larger one. -/
def through (get : τ → σ) (put : σ → τ → τ) : Act σ α → Act τ α
  | done a => done a
  | crash => crash
  | look next => look fun r => (next r).through get put
  | write op next => write op fun b => (next b).through get put
  | note change next =>
    note
      (fun n =>
        let m := change (n.withApp (get n.app))
        m.withApp (put m.app n.app))
      fun n => (next (n.withApp (get n.app))).through get put

/-! ### Single steps -/

/-- The response as it is. -/
def response : Act σ Response := look done

/-- A step in writing the response. -/
def step (op : Response.Op) : Act σ Bool := write op done

/-- A step in writing the response that never commits it. -/
def edit (op : Response.Op) : Act σ Unit := write op fun _ => done ()

/-- What is noted. -/
def notes : Act σ (Notes σ) := note id done

/-- Changes the attributes. -/
def mark (change : Attributes → Attributes) : Act σ Unit :=
  note (fun n => { n with attributes := change n.attributes }) fun _ => done ()

/-- Changes the state of the application. -/
def tell (change : σ → σ) : Act σ Unit :=
  note (fun n => { n with app := change n.app }) fun _ => done ()

/-- Changes the state of the application and keeps what the change gives. -/
def withApp (change : σ → α × σ) : Act σ α :=
  note (fun n => { n with app := (change n.app).2 }) fun n => done (change n.app).1

/-- Gives the path variables; true if there were none yet. -/
def bindVariables (v : Variables) : Act σ Bool :=
  note (fun n => { n with pathVars := some (n.pathVars.getD v) }) fun n =>
    done n.pathVars.isNone

/-- Signals a verdict; true if it is the first one and somebody may wait for it. -/
def signal (v : Verdict) : Act σ Bool :=
  note (fun n => { n with signal := (n.signal.complete v).2 }) fun n => done (n.signal.complete v).1

/-- Changes how many may still signal. -/
def handles (change : Promise Verdict → Promise Verdict) : Act σ Unit :=
  note (fun n => { n with signal := change n.signal }) fun _ => done ()

end Act

/-- Acts that may fail. -/
abbrev Attempt (σ : Type) := ExceptT Failure (Act σ)

end HttpDispatch
