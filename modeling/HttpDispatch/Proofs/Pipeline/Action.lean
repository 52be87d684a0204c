import HttpDispatch.Proofs.Pipeline.Committing
import HttpDispatch.Proofs.Work.Running

/-!
# What actions come to

A route without an action is settled at once, as is one whose act returns. An act whose result is
signalled is given a new completer; when it returns, the handles to that are counted, and the
action waits unless the result is decided by then. A handler is bound if that has not been done
before, and called; a call resolves the parameters, invokes the handler and adds its reply to the
response.

* `Dispatcher.run_act_none`, `Dispatcher.run_act_now`, `Dispatcher.run_act_later`,
  `Dispatcher.run_act_handler`: one kind of action each;
* `Dispatcher.run_bindHandler_of_bound`, `Dispatcher.run_bindHandler_of_unbound`: to bind a handler;
* `Dispatcher.run_call_eq_ok_iff`, `Dispatcher.run_deliver`: to call it;
* `Dispatcher.run_act_binding_iff`: actions that fail by binding.
-/

namespace HttpDispatch

variable {σ α : Type}

/-- The same scene with another completer. -/
def Scene.withSignal (s : Scene (Hub σ)) (p : Promise Verdict) : Scene (Hub σ) :=
  { s with notes := { s.notes with signal := p } }

/-- **What is bound** for the route at a place, if its handler has been bound. -/
def Scene.bound? (s : Scene (Hub σ)) (i : Nat) : Option (Bound σ) := s.notes.app.bound.lookup i

/-- What a call comes to, when its handles are counted. -/
def polled (jobs : List (Act (Hub σ) Unit)) (p : Promise Verdict) : Outturn (Hub σ) :=
  match p.poll with
  | none => .waiting jobs
  | some v => .settled jobs (Dispatcher.ofVerdict (v.getD (.error abandoned)))

theorem begin_eq (r : Request) (f : Request → Act σ (Plan σ)) : Dispatcher.begin r f =
    Act.handles (fun _ => .new) >>= fun _ => (f r).inHub >>= fun plan =>
      Act.handles (fun p => { p with handles := plan.held + (plan.jobs.map Act.inHub).length }) >>=
        fun _ => Act.notes >>= fun n => pure (polled (plan.jobs.map Act.inHub) n.signal) := by
  unfold Dispatcher.begin
  refine congrArg (Act.handles (fun _ => .new) >>= ·) (funext fun _ => ?_)
  refine congrArg ((f r).inHub >>= ·) (funext fun plan => ?_)
  refine congrArg (Act.handles _ >>= ·) (funext fun _ => congrArg (Act.notes >>= ·) ?_)
  funext n
  unfold polled
  cases n.signal.poll <;> rfl

namespace Dispatcher

variable {d : Dispatcher σ} {r : Request} {i : Nat} {h : Handler σ} {b : Bound σ}

/-! ### To bind a handler -/

section Bind

variable {s : Scene (Hub σ)}

/-- **A handler that is bound** is not bound again. -/
theorem run_bindHandler_of_bound (hb : s.bound? i = some b) :
    (d.bindHandler i h).run.run s = (some (.ok b), s) := by
  have hlookup : s.notes.app.bound.lookup i = some b := hb
  unfold bindHandler Act.withApp
  simp only [ExceptT.run_mk, Act.run, hlookup]

/-- **A handler that is not bound** is tried; the resolvers that could be made are kept. -/
theorem run_bindHandler_of_unbound {x : Except BindFault (Bound σ)} {app : σ}
    (hb : s.bound? i = none) (htried : (d.wiring.bind h).run.run s.notes.app.app = (x, app)) :
    (d.bindHandler i h).run.run s = (some x, s.on
      ⟨app, match x with
        | .ok b => s.notes.app.bound ++ [(i, b)]
        | .error _ => s.notes.app.bound⟩) := by
  have hlookup : s.notes.app.bound.lookup i = none := hb
  have htried : (d.wiring.bind h).run s.notes.app.app = (x, app) := htried
  unfold bindHandler Act.withApp
  cases x <;> simp only [ExceptT.run_mk, Act.run, hlookup, htried] <;> rfl

end Bind

/-! ### To call it -/

/-- What comes of binding a handler: the handler is called, unless it could not be bound. -/
def callBound (r : Request) (h : Handler σ) :
    Except BindFault (Bound σ) → Act (Hub σ) (Except Fault Unit)
  | .error f => pure (.error (.binding f))
  | .ok b => do return ((← (call r h b).inHub.run).mapError .failed)

theorem execute_eq (d : Dispatcher σ) (r : Request) (i : Nat) (h : Handler σ) :
    d.execute r i h = (d.bindHandler i h).run >>= callBound r h := by
  unfold execute
  refine congrArg ((d.bindHandler i h).run >>= ·) (funext fun x => ?_)
  cases x <;> rfl

/-- **A call succeeds** where every parameter is resolved, the handler gives a reply for the
arguments, and the reply is turned into what it adds to the response. -/
theorem run_call_eq_ok_iff {s t : Scene σ} : (call r h b).run.run s = (some (.ok ()), t) ↔
    ∃ args s₁, (resolveAll b.args r).run.run s = (some (.ok args), s₁) ∧
      ∃ reply s₂, (h.invoke r args).run.run s₁ = (some (.ok reply), s₂) ∧
        ∃ payload s₃, (b.reply reply r).run.run s₂ = (some (.ok payload), s₃) ∧
          (deliver payload).run s₃ = (some (), t) := by
  simp only [call, Attempt.run_bind_eq_ok_iff, Attempt.run_lift_eq_ok_iff]

/-- A body is added under its media type, unless the response has a content type by then. -/
@[simp] theorem run_deliver (m : MediaType) (data : Bytes) (s : Scene σ) :
    (deliver (.body m data)).run s = (some (), { s with
      response := ((if s.response.hasContentType then s.response
        else (s.response.apply (.setField "Content-Type" m.render)).2).apply (.setBody data)).2 }) := by
  show (Act.response >>= fun response => _ : Act σ Unit).run s = _
  rw [Act.run_bind_of_some (show Act.response.run s = (some s.response, s) from rfl)]
  cases s.response.hasContentType <;> rfl

/-! ### Kinds of actions -/

section Action

variable {s t : Scene (Hub σ)}

@[simp] theorem run_act_none : (d.act r i .none).run s = (some (.settled [] (.ok ())), s) := rfl

theorem run_act_now (f : Request → Attempt σ Unit) : (d.act r i (.now f)).run s =
    (((f r).inHub.run.run s).1.map fun result => .settled [] (result.mapError .failed),
      ((f r).inHub.run.run s).2) :=
  Act.run_bind_pure ..

theorem run_act_later (f : Request → Act σ (Plan σ)) : (d.act r i (.later f)).run s =
    match (f r).inHub.run (s.withSignal .new) with
    | (none, t) => (none, t)
    | (some plan, t) =>
      let signal := { t.notes.signal with handles := plan.held + plan.jobs.length }
      (some (polled (plan.jobs.map Act.inHub) signal), t.withSignal signal) := by
  show (begin r f).run s = _
  rw [begin_eq]
  show ((f r).inHub >>= _).run (s.withSignal .new) = _
  rcases hrun : (f r).inHub.run (s.withSignal .new) with ⟨_ | plan, t⟩
  · exact Act.run_bind_of_none hrun
  · rw [Act.run_bind_of_some hrun, List.length_map]
    rfl

theorem run_act_handler : (d.act r i (.handler h)).run s =
    match (d.bindHandler i h).run.run s with
    | (none, t) => (none, t)
    | (some (.error f), t) => (some (.settled [] (.error (.binding f))), t)
    | (some (.ok b), t) =>
      (((call r h b).inHub.run.run t).1.map fun result => .settled [] (result.mapError .failed),
        ((call r h b).inHub.run.run t).2) := by
  have hact : (d.act r i (.handler h)).run s =
      (((d.execute r i h).run s).1.map (.settled []), ((d.execute r i h).run s).2) :=
    Act.run_bind_pure ..
  rw [hact, execute_eq]
  rcases hbind : (d.bindHandler i h).run.run s with ⟨_ | f | b, t⟩
  · rw [Act.run_bind_of_none hbind]
    rfl
  · rw [Act.run_bind_of_some hbind]
    rfl
  · have hcall : (callBound r h (.ok b)).run t =
        (((call r h b).inHub.run.run t).1.map (Except.mapError .failed),
          ((call r h b).inHub.run.run t).2) :=
      Act.run_bind_pure ..
    rw [Act.run_bind_of_some hbind, hcall, Option.map_map]
    rfl

theorem mapError_ne_binding (result : Except Failure Unit) (f : BindFault) :
    result.mapError .failed ≠ .error (Fault.binding f) := by
  cases result <;> nofun

/-- **An action fails by binding** exactly if it is a handler that cannot be bound. -/
theorem run_act_binding_iff {action : Action σ} {jobs : List (Act (Hub σ) Unit)} {f : BindFault} :
    (d.act r i action).run s = (some (.settled jobs (.error (.binding f))), t) ↔
      jobs = [] ∧ ∃ h, action = .handler h ∧
        (d.bindHandler i h).run.run s = (some (.error f), t) := by
  -- whatever else an action comes to, it is no fault of binding
  have hother : ∀ {jobs' : List (Act (Hub σ) Unit)} (result : Except Failure Unit),
      Outturn.settled jobs' (result.mapError .failed) ≠ .settled jobs (.error (.binding f)) := by
    intro jobs' result heq
    injection heq with _ heq
    exact mapError_ne_binding result f heq
  cases action with
  | none => simp [run_act_none]
  | now act => simp [run_act_now, hother]
  | later act =>
    rw [run_act_later]
    rcases (act r).inHub.run (s.withSignal .new) with ⟨_ | plan, t⟩
    · simp
    · cases hpoll : Promise.poll { t.notes.signal with handles := plan.held + plan.jobs.length } with
      | none => simp [polled, hpoll]
      | some v => simp [polled, hpoll, ofVerdict, hother]
  | handler h =>
    rw [run_act_handler]
    rcases hbind : (d.bindHandler i h).run.run s with ⟨_ | f' | b, t⟩
    · simp [hbind]
    · simp [hbind, and_assoc, eq_comm]
    · simp [hbind, hother]

end Action

end Dispatcher

end HttpDispatch
