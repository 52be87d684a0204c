import Mathlib.Data.List.Chain
import HttpDispatch.Proofs.Binding.Trial
import HttpDispatch.Proofs.Pipeline.Filters
import HttpDispatch.Proofs.Work.Leaves

/-!
# Handlers are bound when they are first used

A request that reaches the route of a handler finds its resolvers made, or has them made. What has
been made is kept and used ever after; a trial that fails leaves nothing behind but what the
factories did to the state of the application, and ends the request with an internal failure. The
next request that comes to the route tries again from the beginning.

* `Act.Keeps`: an act leaves what is bound for a route as it is;
* `Dispatcher.run_service_of_handler`: the way of a request to a handler, and on;
* `Dispatcher.Refuses`: the end of a request whose handler could not be bound;
* `Dispatcher.Visits`: what a request means for the resolvers of a route;
* `Dispatcher.keeps_progress`: what goes on later means nothing for them;
* `Dispatcher.binding_is_lazy`: any sequence of requests.
-/

namespace HttpDispatch

variable {σ α β : Type}

/-! ### What stays bound -/

/-- What a trial to bind a handler has come to: which resolvers were asked for, and the fault that
ended it, if one did. -/
structure Trial (σ : Type) where
  calls : List (Creation σ)
  fault : Option BindFault

namespace Act

variable {i : Nat}

/-- **An act leaves what is bound** for the route at a place as it is, whether it returns or
crashes. -/
def Keeps (i : Nat) (a : Act (Hub σ) α) : Prop := ∀ s, (a.run s).2.bound? i = s.bound? i

theorem Keeps.of_run {a : Act (Hub σ) α} {x : Option α} {s t : Scene (Hub σ)} (h : a.Keeps i)
    (hrun : a.run s = (x, t)) : t.bound? i = s.bound? i := by
  have hkept := h s
  rwa [hrun] at hkept

theorem keeps_pure (x : α) : Keeps i (pure x : Act (Hub σ) α) := fun _ => rfl

theorem keeps_bind {a : Act (Hub σ) β} {f : β → Act (Hub σ) α} (ha : a.Keeps i)
    (hf : ∀ x, (f x).Keeps i) : (a >>= f).Keeps i := by
  intro s
  rcases hrun : a.run s with ⟨x, t⟩
  have hkept := ha.of_run hrun
  cases x with
  | none => rw [run_bind_of_none hrun, hkept]
  | some x => rw [run_bind_of_some hrun, hf x t, hkept]

/-- **An act of the application** does not come near the handlers. -/
theorem keeps_inHub (a : Act σ α) : a.inHub.Keeps i := by
  intro s
  unfold inHub
  induction a generalizing s with
  | done x => rfl
  | crash => rfl
  | look next ih => exact ih s.response s
  | write op next ih => exact ih _ { s with response := (s.response.apply op).2 }
  | note change next ih => exact ih _ _

theorem keeps_edit (op : Response.Op) : Keeps i (edit op : Act (Hub σ) Unit) := fun _ => rfl

end Act

/-- **What goes on after a request has returned** leaves what is bound as it is: the jobs beside it,
and what it does when its answer is signalled. -/
structure Progress.Keeps (i : Nat) (p : Progress (Hub σ)) : Prop where
  jobs : ∀ job ∈ p.jobs, job.Keeps i
  resume : ∀ {resume}, p.stage = .waiting resume → ∀ v, (resume v).Keeps i

/-- What goes on beside an action. -/
def Outturn.jobs : Outturn σ → List (Act σ Unit)
  | .settled jobs _ => jobs
  | .waiting jobs => jobs

namespace Dispatcher

open Act (keeps_pure keeps_bind keeps_inHub keeps_edit)

variable {d : Dispatcher σ} {r : Request} {i : Nat} {route : Route σ}

theorem keeps_handleFailure (f : Failure) : (d.handleFailure r f).Keeps i := keeps_inHub _

theorem keeps_remaining (result : Except Fault Unit) : (remaining r route result).Keeps i := by
  match result with
  | .ok () => exact keeps_pure _
  | .error (.binding f) => exact keeps_pure _
  | .error (.failed f) =>
    unfold remaining reconsider
    cases route.onError with
    | none => exact keeps_pure _
    | some callback =>
      refine keeps_bind (keeps_inHub _) fun x => ?_
      rcases x with _ | ⟨⟩ <;> exact keeps_pure _

theorem keeps_conclude (result : Except Fault Unit) : (d.conclude r route result).Keeps i := by
  rw [conclude_eq]
  refine keeps_bind (keeps_remaining result) fun error => keeps_bind ?_ fun _ =>
    keeps_bind (keeps_edit _) fun _ => ?_
  · cases error with
    | none => exact keeps_pure _
    | some f => exact keeps_handleFailure f
  · unfold tell
    cases route.onComplete with
    | none => exact keeps_pure _
    | some callback => exact keeps_bind (keeps_inHub _) fun _ => keeps_pure _

theorem keeps_close (error : Option Failure) : (d.close r error).Keeps i := by
  refine keeps_bind (fun _ => rfl) fun response => ?_
  split
  · cases error with
    | none => exact keeps_bind (keeps_edit _) fun _ => keeps_pure _
    | some f => exact keeps_bind (keeps_handleFailure f) fun _ =>
        keeps_bind (keeps_edit _) fun _ => keeps_pure _
  · exact keeps_pure _

theorem keeps_unwind (leaves : List (Leave σ)) (error : Option Failure) :
    (unwind leaves error).Keeps i := by
  induction leaves generalizing error with
  | nil => exact keeps_pure error
  | cons leave leaves ih => exact keeps_bind (keeps_inHub _) ih

theorem keeps_settled {jobs : List (Act (Hub σ) Unit)} {result : Except Fault Unit} :
    (d.follow r route (.settled jobs result)).Keeps i :=
  keeps_bind (keeps_conclude result) fun _ => keeps_pure _

/-! ### To bind a handler -/

section Handler

variable {h : Handler σ} {b : Bound σ} {s t : Scene (Hub σ)}

/-- What follows on binding the handler of a route: the handler is called or not, the request ends,
and the filters are left. -/
def onward (d : Dispatcher σ) (r : Request) (route : Route σ) (h : Handler σ)
    (leaves : List (Leave σ)) (bound : Except BindFault (Bound σ)) :
    Act (Hub σ) (Progress (Hub σ)) := do
  let error ← d.conclude r route (← callBound r h bound)
  Progress.andThen ⟨[], .finished error⟩ fun error => unwind leaves.reverse error >>= d.close r

theorem keeps_callBound (bound : Except BindFault (Bound σ)) : (callBound r h bound).Keeps i := by
  cases bound with
  | error f => exact keeps_pure _
  | ok b => exact keeps_bind (keeps_inHub _) fun _ => keeps_pure _

theorem keeps_onward (leaves : List (Leave σ)) (bound : Except BindFault (Bound σ)) :
    (d.onward r route h leaves bound).Keeps i := by
  have hend : ∀ error, (unwind leaves.reverse error >>= d.close r).Keeps i :=
    fun error => keeps_bind (keeps_unwind _ error) keeps_close
  exact keeps_bind (keeps_callBound bound) fun result => keeps_bind (keeps_conclude result)
    fun error => keeps_bind (hend error) fun _ => keeps_pure _

/-- **A request that reaches the route of a handler** has the handler bound, and goes on. -/
theorem run_service_of_handler {leaves : List (Leave σ)} {sel : Selection (Route σ)}
    (entered : Enters r d.filters s leaves t) (hselect : select Route.mapping r d.routes = some sel)
    (haction : sel.entry.action = .handler h) :
    (d.service r).run s = ((d.bindHandler sel.index h).run >>= d.onward r sel.entry h leaves).run
      (t.withVariables sel.pathVars) := by
  have hact : d.act r sel.index sel.entry.action =
      d.execute r sel.index h >>= fun result => pure (.settled [] result) := by
    rw [haction]
    rfl
  rw [run_service_of_enters (List.append_nil _).symm entered, pass, process_eq hselect, hact,
    execute_eq, bind_assoc, Act.run_bind_of_some (Act.run_bindVariables ..)]
  simp only [bind_assoc]
  -- what follows is the same for every result of binding
  refine congrArg (fun g => ((d.bindHandler sel.index h).run >>= g).run _) (funext fun bound => ?_)
  refine congrArg (callBound r h bound >>= ·) (funext fun result => ?_)
  exact bind_assoc (d.conclude r sel.entry result) _ _

end Handler

/-! ### Requests whose handler cannot be bound -/

section Fault

variable (d r)

/-- **The end of a request that fails before its handler is called**: error handlers are asked to
deal with the failure, the response is committed, and the route is told about the failure. The route
is not asked about it, and nothing else happens. The request has no end if an error handler crashes,
or the route when it is told. -/
inductive Fails (route : Route σ) (f : Failure) (s : Scene (Hub σ)) :
    Option (Option Failure) × Scene (Hub σ) → Prop
  | finished {rescued told : List Moment} {t u : Scene (Hub σ)}
    (rescue : Rescues d.errorHandlers.length (some f) rescued)
    (hearing : route.Hears (some f) told)
    (before : d.Occurs r (some route) s (rescued ++ [.commit]) t)
    (after : d.Occurs r (some route) t told u) : Fails route f s (some (some f), u)
  | crashed {t : Scene (Hub σ)} (broken : d.Breaks r (some route) f s t) : Fails route f s (none, t)
  | untold {rescued : List Moment} {t u : Scene (Hub σ)}
    {callback : Request → Option Failure → Attempt σ Unit}
    (rescue : Rescues d.errorHandlers.length (some f) rescued)
    (before : d.Occurs r (some route) s (rescued ++ [.commit]) t)
    (h : route.onComplete = some callback)
    (run : (callback r (some f)).inHub.run.run t = (none, u)) : Fails route f s (none, u)

/-- **A request whose handler could not be bound**, from the scene that the trial leaves: its
failure is internal, it fails, and the filters are left. If nobody but the default error handler
deals with failures, the client is told so. -/
structure Refuses (route : Route σ) (leaves : List (Leave σ)) (fault : BindFault)
    (s : Scene (Hub σ)) (z : Option (Progress (Hub σ)) × Scene (Hub σ)) : Prop where
  internal : fault.failure = .internal fault.message
  status : fault.failure.answer = .internalServerError
  ends : ∃ x y, d.Fails r route fault.failure s x ∧ Surfaces leaves.reverse x y ∧
    z = (y.1.map fun error => ⟨[], .finished error⟩, y.2)
  answered : ∀ withCauses, d.errorHandlers = [defaultErrorHandler withCauses] →
    s.response.committed = false → z.2.response.status = .internalServerError

variable {d r} {leaves : List (Leave σ)} {fault : BindFault} {h : Handler σ} {s : Scene (Hub σ)}

theorem fails_conclude (route : Route σ) (fault : BindFault) (s : Scene (Hub σ)) :
    d.Fails r route fault.failure s ((d.conclude r route (.error (.binding fault))).run s) := by
  have hends : d.Ends r True route (.error (.binding fault)) s _ := ends_conclude _ s
  generalize (d.conclude r route (.error (.binding fault))).run s = x at hends ⊢
  cases hends with
  | finished judgement rescue hearing before after fixed =>
    cases judgement
    exact .finished rescue hearing before after
  | crashed judgement before broken =>
    cases judgement
    cases before
    exact .crashed broken
  | unanswered _ failed => cases failed
  | untold _ judgement rescue before h run =>
    cases judgement
    exact .untold rescue before h run

/-- The default error handler sends the status of a failure, unless something has been sent. -/
theorem run_handleFailure_default {f : Failure} {withCauses : Bool}
    (hdefault : d.errorHandlers = [defaultErrorHandler withCauses]) (s : Scene (Hub σ)) :
    (d.handleFailure r f).run s = (some (), { s with
      response := (s.response.apply (ErrorBody.ofFailure f r.path withCauses).send).2 }) := by
  unfold handleFailure
  rw [hdefault]
  rfl

theorem onward_error (d : Dispatcher σ) (r : Request) (route : Route σ) (h : Handler σ)
    (leaves : List (Leave σ)) (fault : BindFault) : d.onward r route h leaves (.error fault) =
      d.conclude r route (.error (.binding fault)) >>= fun error =>
        Progress.andThen ⟨[], .finished error⟩ fun error =>
          unwind leaves.reverse error >>= d.close r := rfl

theorem status_onward {withCauses : Bool}
    (hdefault : d.errorHandlers = [defaultErrorHandler withCauses])
    (hs : s.response.committed = false) :
    ((d.onward r route h leaves (.error fault)).run s).2.response.status =
      .internalServerError := by
  let body := ErrorBody.ofFailure fault.failure r.path withCauses
  have hcommitted : (s.response.apply body.send).2.committed := Response.committed_apply rfl _
  have hstatus : (s.response.apply body.send).2.status = .internalServerError := by
    show (s.response.send .internalServerError (some MediaType.json.render)
      body.encode).2.status = _
    rw [Response.send, hs]
    rfl
  rw [onward_error, conclude_eq]
  show (((d.handleFailure r fault.failure >>= _) >>= _).run s).2.response.status = _
  rw [bind_assoc, Act.run_bind_of_some (run_handleFailure_default hdefault s)]
  -- once the error body is sent, nothing can change the status any more
  exact ((Act.evolves_run _ _).fixed hcommitted).status.trans hstatus

theorem refuses_onward (route : Route σ) (h : Handler σ) (leaves : List (Leave σ))
    (fault : BindFault) (s : Scene (Hub σ)) :
    d.Refuses r route leaves fault s ((d.onward r route h leaves (.error fault)).run s) where
  internal := rfl
  status := rfl
  ends := by
    have hfails := fails_conclude (d := d) (r := r) route fault s
    rw [onward_error]
    have hends : d.Ends r True route (.error (.binding fault)) s _ := ends_conclude _ s
    rcases hrun : (d.conclude r route (.error (.binding fault))).run s with ⟨error, u⟩
    rw [hrun] at hfails hends
    cases error with
    | none =>
      rw [Act.run_bind_of_none hrun]
      exact ⟨_, _, hfails, .crashed u, rfl⟩
    | some error =>
      rw [Act.run_bind_of_some hrun, run_andThen_finished]
      exact ⟨_, _, hfails, surfaces_run hends.committed _ error, rfl⟩
  answered withCauses hdefault hs := status_onward hdefault hs

end Fault

/-! ### What a request means for the resolvers of a route -/

section Visit

variable (d r) (i)

/-- **A request reaches the route at a place**: all filters pass it on, and the route is
selected. -/
structure Reaches (s : Scene (Hub σ)) (leaves : List (Leave σ)) (sel : Selection (Route σ))
    (t : Scene (Hub σ)) : Prop where
  entered : Enters r d.filters s leaves t
  selected : select Route.mapping r d.routes = some sel
  place : sel.index = i

/-- **What a request means for the resolvers of a route**, from a scene on: whether it has them
made, and what the trial comes to.

* A request that does not reach the route leaves them as they are.
* Once they are made, nothing that is registered is asked for them: the request is served in the
  same way whatever is registered.
* Otherwise there is a trial from the beginning, in the state that the filters leave. If it
  succeeds, the resolvers are kept, and the request goes on with them.
* If it does not, nothing is kept, and the request ends as `Refuses` says: nothing but the state of
  the application has changed since the route was selected. -/
inductive Visits (l : List (Registration σ)) (h : Handler σ) (s : Scene (Hub σ)) :
    Option (Trial σ) → Prop
  | elsewhere (unreached : ∀ leaves sel t, ¬ d.Reaches r i s leaves sel t)
    (kept : ((d.service r).run s).2.bound? i = s.bound? i) : Visits l h s none
  | ready {leaves : List (Leave σ)} {sel : Selection (Route σ)} {t : Scene (Hub σ)} {b : Bound σ}
    (reached : d.Reaches r i s leaves sel t) (bound : s.bound? i = some b)
    (unasked : ∀ w : Wiring σ, ({ d with wiring := w }.service r).run s = (d.service r).run s)
    (kept : ((d.service r).run s).2.bound? i = some b) : Visits l h s none
  | made {leaves : List (Leave σ)} {sel : Selection (Route σ)} {t : Scene (Hub σ)} {b : Bound σ}
    {calls : List (Creation σ)} {app : σ} (reached : d.Reaches r i s leaves sel t)
    (unbound : s.bound? i = none) (trial : Wiring.Tries l h t.notes.app.app calls none app)
    (result : ((Wiring.ofList l).bind h).run.run t.notes.app.app = (.ok b, app))
    (goesOn : (d.service r).run s = (d.onward r sel.entry h leaves (.ok b)).run
      ((t.withVariables sel.pathVars).on ⟨app, t.notes.app.bound ++ [(i, b)]⟩))
    (kept : ((d.service r).run s).2.bound? i = some b) : Visits l h s (some ⟨calls, none⟩)
  | refused {leaves : List (Leave σ)} {sel : Selection (Route σ)} {t : Scene (Hub σ)}
    {calls : List (Creation σ)} {fault : BindFault} {app : σ}
    (reached : d.Reaches r i s leaves sel t) (unbound : s.bound? i = none)
    (trial : Wiring.Tries l h t.notes.app.app calls (some fault) app)
    (kept : ((d.service r).run s).2.bound? i = none)
    (ends : d.Refuses r sel.entry leaves fault
      ((t.withVariables sel.pathVars).on ⟨app, t.notes.app.bound⟩)
      ((d.service r).run s)) : Visits l h s (some ⟨calls, some fault⟩)

variable {d r} {i} {l : List (Registration σ)} {h : Handler σ} {s t : Scene (Hub σ)}
  {leaves : List (Leave σ)} {sel : Selection (Route σ)}

theorem bound?_of_enters {filters : List (Filter σ)} (entered : Enters r filters s leaves t) :
    t.bound? i = s.bound? i := by
  induction entered with
  | nil => rfl
  | cons entry _ ih => exact ih.trans ((keeps_inHub _).of_run entry)

theorem keeps_bindHandler {j : Nat} (hj : j ≠ i) : (d.bindHandler j h).run.Keeps i := by
  intro s
  cases hbound : s.bound? j with
  | some b => rw [run_bindHandler_of_bound hbound]
  | none =>
    rcases hmade : (d.wiring.bind h).run.run s.notes.app.app with ⟨fault | b, app⟩
    · rw [run_bindHandler_of_unbound hbound hmade]
      rfl
    · rw [run_bindHandler_of_unbound hbound hmade]
      have hbeq : (i == j) = false := beq_false_of_ne (Ne.symm hj)
      show (s.notes.app.bound ++ [(j, b)]).lookup i = s.notes.app.bound.lookup i
      rw [List.lookup_append, List.lookup_cons, hbeq]
      exact Option.or_none

/-- No action but the handler's own binds it. -/
theorem keeps_act {j : Nat} (hj : j ≠ i) (action : Action σ) : (d.act r j action).Keeps i := by
  cases action with
  | none => exact keeps_pure _
  | now f => exact keeps_bind (keeps_inHub _) fun _ => keeps_pure _
  | later f =>
    refine keeps_bind (fun _ => rfl) fun _ => keeps_bind (keeps_inHub _) fun plan => ?_
    refine keeps_bind (fun _ => rfl) fun _ => keeps_bind (fun _ => rfl) fun n => ?_
    split <;> exact keeps_pure _
  | handler k =>
    refine keeps_bind ?_ fun _ => keeps_pure _
    rw [execute_eq]
    exact keeps_bind (keeps_bindHandler hj) keeps_callBound

theorem keeps_process (hother : ∀ sel, select Route.mapping r d.routes = some sel → sel.index ≠ i) :
    (d.process r).Keeps i := by
  cases hselect : select Route.mapping r d.routes with
  | none =>
    unfold process
    rw [hselect]
    exact keeps_bind (keeps_handleFailure _) fun _ =>
      keeps_bind (keeps_edit _) fun _ => keeps_pure _
  | some sel =>
    rw [process_eq hselect]
    refine keeps_bind (fun _ => rfl) fun _ =>
      keeps_bind (keeps_act (hother sel hselect) _) fun o => ?_
    cases o with
    | settled jobs result => exact keeps_settled
    | waiting jobs => exact keeps_pure _

theorem keeps_andThen {f : Leave (Hub σ)} (hf : ∀ error, (f error).Keeps i)
    (p : Progress (Hub σ)) : (p.andThen f).Keeps i := by
  obtain ⟨jobs, stage⟩ := p
  cases stage with
  | finished error => exact keeps_bind (hf error) fun _ => keeps_pure _
  | waiting resume => exact keeps_pure _

/-- **A request that does not reach the route** leaves what is bound for it as it is. -/
theorem bound?_of_unreached (h : ∀ leaves sel t, ¬ d.Reaches r i s leaves sel t) :
    ((d.service r).run s).2.bound? i = s.bound? i := by
  have hend : ∀ (leaves : List (Leave σ)) (p : Progress (Hub σ)),
      (p.andThen fun error => unwind leaves error >>= d.close r).Keeps i := fun leaves =>
    keeps_andThen fun error => keeps_bind (keeps_unwind leaves error) keeps_close
  rcases enters_or_not r d.filters s with
    ⟨leaves, t, entered⟩ | ⟨before, f, after, leaves, t, entry, u, hfilters, entered, hentry, hno⟩
  · have hprocess : (d.process r).Keeps i := keeps_process fun sel hselect hplace =>
      h leaves sel t ⟨entered, hselect, hplace⟩
    rw [run_service_of_enters (List.append_nil _).symm entered, pass]
    exact (keeps_bind hprocess (hend _) t).trans (bound?_of_enters entered)
  · have hu : u.bound? i = s.bound? i :=
      ((keeps_inHub _).of_run hentry).trans (bound?_of_enters entered)
    rw [run_service_of_enters hfilters entered, pass]
    cases entry with
    | none => rwa [Act.run_bind_of_none (Act.run_bind_of_none hentry)]
    | some entry =>
      rw [bind_assoc, Act.run_bind_of_some hentry]
      cases entry with
      | passOn leave => exact absurd rfl (hno leave)
      | answer error => exact (hend _ (.finished error) u).trans hu

theorem visits_of_bound {b : Bound σ} (reached : d.Reaches r i s leaves sel t)
    (haction : sel.entry.action = .handler h) (hbound : s.bound? i = some b) :
    d.Visits r i l h s none := by
  obtain ⟨entered, hselect, rfl⟩ := reached
  let t' := t.withVariables sel.pathVars
  have hbound' : t'.bound? sel.index = some b := (bound?_of_enters entered).trans hbound
  have hrun : ∀ w : Wiring σ, ({ d with wiring := w }.service r).run s =
      (d.onward r sel.entry h leaves (.ok b)).run t' := by
    intro w
    have hservice := run_service_of_handler (d := { d with wiring := w }) entered hselect haction
    rw [hservice, Act.run_bind_of_some (run_bindHandler_of_bound hbound')]
    rfl
  refine .ready ⟨entered, hselect, rfl⟩ hbound (fun w => (hrun w).trans (hrun d.wiring).symm) ?_
  rw [hrun d.wiring, keeps_onward, hbound']

theorem visits_of_unbound (reached : d.Reaches r i s leaves sel t)
    (hwiring : d.wiring = .ofList l) (haction : sel.entry.action = .handler h)
    (hunbound : s.bound? i = none) : ∃ x, d.Visits r i l h s (some x) := by
  obtain ⟨entered, hselect, rfl⟩ := reached
  let t' := t.withVariables sel.pathVars
  have hunbound' : t'.bound? sel.index = none := (bound?_of_enters entered).trans hunbound
  have hservice := run_service_of_handler entered hselect haction
  obtain ⟨calls, trial⟩ := Wiring.tries_bind l h t.notes.app.app
  rcases hresult : ((Wiring.ofList l).bind h).run.run t.notes.app.app with ⟨fault | b, app⟩
  · rw [hresult] at trial
    rw [Act.run_bind_of_some (run_bindHandler_of_unbound hunbound' (hwiring ▸ hresult))] at hservice
    refine ⟨⟨calls, some fault⟩, .refused ⟨entered, hselect, rfl⟩ hunbound trial ?_ ?_⟩
    · rw [hservice, keeps_onward]
      exact hunbound'
    · rw [hservice]
      exact refuses_onward ..
  · rw [hresult] at trial
    rw [Act.run_bind_of_some (run_bindHandler_of_unbound hunbound' (hwiring ▸ hresult))] at hservice
    refine ⟨⟨calls, none⟩, .made ⟨entered, hselect, rfl⟩ hunbound trial hresult hservice ?_⟩
    have hlookup : (t'.notes.app.bound ++ [(sel.index, b)]).lookup sel.index = some b := by
      have hnone : t'.notes.app.bound.lookup sel.index = none := hunbound'
      rw [List.lookup_append, hnone, List.lookup_cons_self]
      rfl
    rw [hservice, keeps_onward]
    exact hlookup

/-- **Every request means one of these** for the resolvers of a route. -/
theorem exists_visits (hwiring : d.wiring = .ofList l) (hroute : d.routes[i]? = some route)
    (haction : route.action = .handler h) (r : Request) (s : Scene (Hub σ)) :
    ∃ x, d.Visits r i l h s x := by
  by_cases hreached : ∃ leaves sel t, d.Reaches r i s leaves sel t
  · obtain ⟨leaves, sel, t, reached⟩ := hreached
    have hentry : sel.entry = route := by
      have hplace := (select_eq_some_iff.mp reached.selected).entry
      rw [reached.place, hroute] at hplace
      exact (Option.some.inj hplace).symm
    have haction : sel.entry.action = .handler h := by rw [hentry, haction]
    cases hbound : s.bound? i with
    | some b => exact ⟨none, visits_of_bound reached haction hbound⟩
    | none =>
      obtain ⟨x, hx⟩ := visits_of_unbound reached hwiring haction hbound
      exact ⟨some x, hx⟩
  · have hunreached : ∀ leaves sel t, ¬ d.Reaches r i s leaves sel t :=
      fun leaves sel t reached => hreached ⟨leaves, sel, t, reached⟩
    exact ⟨none, .elsewhere hunreached (bound?_of_unreached hunreached)⟩

theorem Visits.of_bound {x : Option (Trial σ)} (hx : d.Visits r i l h s x)
    (hbound : (s.bound? i).isSome) :
    x = none ∧ ((d.service r).run s).2.bound? i = s.bound? i := by
  cases hx with
  | elsewhere unreached kept => exact ⟨rfl, kept⟩
  | ready reached bound unasked kept => exact ⟨rfl, kept.trans bound.symm⟩
  | made reached unbound => simp [unbound] at hbound
  | refused reached unbound => simp [unbound] at hbound

theorem Visits.isSome_of_made {calls : List (Creation σ)}
    (hx : d.Visits r i l h s (some ⟨calls, none⟩)) :
    (((d.service r).run s).2.bound? i).isSome := by
  cases hx with
  | made reached unbound trial result goesOn kept =>
    rw [kept]
    rfl

end Visit

/-! ### What goes on later -/

section Later

variable {c : Bool}

theorem leaves_keeps_andThen {p : Progress (Hub σ)} {f : Leave (Hub σ)} (hp : p.Keeps i)
    (hf : ∀ error, (f error).Keeps i) :
    Act.Leaves (fun _ q => Progress.Keeps i q) c (p.andThen f) := by
  obtain ⟨jobs, stage⟩ := p
  cases stage with
  | finished error =>
    exact Act.leaves_after fun _ _ => Act.leaves_pure ⟨hp.jobs, nofun⟩
  | waiting resume =>
    refine Act.leaves_pure ⟨hp.jobs, fun h => ?_⟩
    cases h
    exact fun v => keeps_bind (hp.resume rfl v) hf

theorem leaves_keeps_act (j : Nat) (action : Action σ) :
    Act.Leaves (fun _ o => ∀ job ∈ Outturn.jobs o, job.Keeps i) c (d.act r j action) := by
  cases action with
  | none => exact Act.leaves_pure nofun
  | now f => exact Act.leaves_after fun _ _ => Act.leaves_pure nofun
  | handler h => exact Act.leaves_after fun _ _ => Act.leaves_pure nofun
  | later f =>
    refine Act.leaves_after fun _ _ => Act.leaves_after fun _ plan => ?_
    have hjobs : ∀ job ∈ plan.jobs.map Act.inHub, job.Keeps i := by
      intro job hjob
      obtain ⟨a, -, rfl⟩ := List.mem_map.mp hjob
      exact keeps_inHub a
    refine Act.leaves_after fun _ _ => Act.leaves_after fun _ n => ?_
    split <;> exact Act.leaves_pure hjobs

theorem leaves_keeps_process : Act.Leaves (fun _ q => Progress.Keeps i q) c (d.process r) := by
  cases hselect : select Route.mapping r d.routes with
  | none =>
    unfold process
    rw [hselect]
    exact Act.leaves_after fun _ _ => Act.leaves_after fun _ _ => Act.leaves_pure ⟨nofun, nofun⟩
  | some sel =>
    rw [process_eq hselect]
    refine Act.leaves_after fun _ _ => Act.leaves_bind (leaves_keeps_act (i := i) _ _)
      fun _ o hjobs => ?_
    cases o with
    | settled jobs result =>
      exact Act.leaves_after fun _ _ => Act.leaves_pure ⟨hjobs, nofun⟩
    | waiting jobs =>
      refine Act.leaves_pure ⟨hjobs, fun h => ?_⟩
      cases h
      exact fun v => keeps_conclude _

theorem leaves_keeps_pass (filters : List (Filter σ)) :
    Act.Leaves (fun _ q => Progress.Keeps i q) c (d.pass r filters) := by
  induction filters generalizing c with
  | nil => exact leaves_keeps_process
  | cons f rest ih =>
    refine Act.leaves_after fun _ entry => ?_
    cases entry with
    | answer error => exact Act.leaves_pure ⟨nofun, nofun⟩
    | passOn leave =>
      exact Act.leaves_bind ih fun _ p hp => leaves_keeps_andThen hp fun _ => keeps_inHub _

/-- **Whatever goes on after a request has returned** leaves what is bound as it is. -/
theorem keeps_progress {s : Scene (Hub σ)} {p : Progress (Hub σ)}
    (h : ((d.service r).run s).1 = some p) : p.Keeps i := by
  have hleaves : Act.Leaves (fun _ q => Progress.Keeps i q) false (d.service r) :=
    Act.leaves_bind (leaves_keeps_pass _) fun _ p hp => leaves_keeps_andThen hp keeps_close
  obtain ⟨-, hkeeps, -⟩ := hleaves.run nofun h
  exact hkeeps

end Later

/-! ### Sequences of requests -/

section Sequence

/-- One request follows on another, for the resolvers of the route at a place: it finds them as the
other left them. Whatever else may have changed. -/
def Follows (d : Dispatcher σ) (i : Nat) (v w : Request × Scene (Hub σ)) : Prop :=
  w.2.bound? i = ((d.service v.1).run v.2).2.bound? i

variable {l : List (Registration σ)} {h : Handler σ} {visits : List (Request × Scene (Hub σ))}
  {trials : List (Option (Trial σ))}

theorem no_trials (hchain : visits.IsChain (d.Follows i))
    (hvisits : List.Forall₂ (fun v x => d.Visits v.1 i l h v.2 x) visits trials)
    (hbound : ∀ v ∈ visits.head?, (v.2.bound? i).isSome) : ∀ x ∈ trials, x = none := by
  induction hvisits with
  | nil => exact fun x hx => by cases hx
  | @cons v x visits trials hvisit _ ih =>
    obtain ⟨hnone, hkept⟩ := hvisit.of_bound (hbound v rfl)
    have hrest : ∀ w ∈ visits.head?, (w.2.bound? i).isSome := by
      intro w hw
      have hfollows : d.Follows i v w := hchain.rel_head? hw
      rw [hfollows, hkept]
      exact hbound v rfl
    intro y hy
    rcases List.mem_cons.mp hy with rfl | hy
    · exact hnone
    · exact ih hchain.tail hrest y hy

/-- **At most one trial succeeds** in a sequence of requests, and none comes after it. -/
theorem pairwise_trials (hchain : visits.IsChain (d.Follows i))
    (hvisits : List.Forall₂ (fun v x => d.Visits v.1 i l h v.2 x) visits trials) :
    trials.Pairwise fun x y => (∃ calls, x = some ⟨calls, none⟩) → y = none := by
  induction hvisits with
  | nil => exact .nil
  | @cons v x visits trials hvisit hvisits ih =>
    refine List.pairwise_cons.mpr ⟨?_, ih hchain.tail⟩
    rintro y hy ⟨calls, rfl⟩
    refine no_trials hchain.tail hvisits (fun w hw => ?_) y hy
    have hfollows : d.Follows i v w := hchain.rel_head? hw
    rw [hfollows]
    exact hvisit.isSome_of_made

/-- **Handlers are bound when they are first used, and only once.** The route at a place has a
handler; anything may be registered, and factories may do as they please. In any sequence of
requests, of which each finds the resolvers of the handler as the one before left them,

* every request means for them what `Visits` says: a trial is made exactly if the request reaches
  the route and there are none;
* no trial comes after one that succeeded.

Nothing that goes on after a request has returned, be it beside the request or when an answer is
signalled, changes what is bound. -/
theorem binding_is_lazy (hwiring : d.wiring = .ofList l) (hroute : d.routes[i]? = some route)
    (haction : route.action = .handler h) :
    (∀ visits : List (Request × Scene (Hub σ)), visits.IsChain (d.Follows i) →
      ∃ trials, List.Forall₂ (fun v x => d.Visits v.1 i l h v.2 x) visits trials ∧
        trials.Pairwise fun x y => (∃ calls, x = some ⟨calls, none⟩) → y = none) ∧
    ∀ (r : Request) (s : Scene (Hub σ)) (p : Progress (Hub σ)),
      ((d.service r).run s).1 = some p → p.Keeps i := by
  refine ⟨fun visits hchain => ?_, fun r s p hp => keeps_progress hp⟩
  have hexists : ∃ trials, List.Forall₂ (fun v x => d.Visits v.1 i l h v.2 x) visits trials := by
    clear hchain
    induction visits with
    | nil => exact ⟨[], .nil⟩
    | cons v visits ih =>
      obtain ⟨trials, htrials⟩ := ih
      obtain ⟨x, hx⟩ := exists_visits hwiring hroute haction v.1 v.2
      exact ⟨x :: trials, .cons hx htrials⟩
  obtain ⟨trials, hvisits⟩ := hexists
  exact ⟨trials, hvisits, pairwise_trials hchain hvisits⟩

/-- A factory that counts the resolvers it is asked for, and fails to make the second one. -/
def flaky : Factory Nat where
  order := 0
  supports _ := true
  create p _ n :=
    (if n = 1 then .error (.unreadableEntity p.name "Token") else .ok fun _ => pure .null, n + 1)

/-- A bean with two fields. -/
def pair : Bean Nat where
  name := "Pair"
  fields := [.of "left" .query .bytes, .of "right" .query .bytes]
  assemble _ _ := pure .null

/-- A handler that takes that bean. -/
def pairTaker : Handler Nat where
  controller := "Pairs"
  name := "put"
  params := [.of "pair" .bean (.bean pair)]
  returns := "()"
  codec := none
  call _ _ := pure .nothing

/-- What is registered for that handler. -/
def flakyList : List (Registration Nat) := [.factory flaky, .replyFactory negotiatingFactory]

/-- The dispatcher of that handler alone. -/
def ofPairs : Dispatcher Nat where
  routes := [⟨.of "/", .handler pairTaker, none, none⟩]
  wiring := ⟨[flaky], [], [negotiatingFactory], [], ⟨[], some "format"⟩⟩
  filters := []
  errorHandlers := [defaultErrorHandler false]

theorem wiring_ofPairs : ofPairs.wiring = .ofList flakyList := by
  rw [Wiring.ofList_eq]
  show ofPairs.wiring = ⟨byOrder Factory.order [flaky], byOrder Advice.order [],
    byOrder ReplyFactory.order [negotiatingFactory], byOrder ReplyAdvice.order [],
    ⟨byOrder Codec.order [], some "format"⟩⟩
  simp only [byOrder, List.mergeSort_singleton, List.mergeSort_nil]
  rfl

/-- A request for the route, and the scene that it finds. -/
def arrives (hub : Hub Nat) : Request × Scene (Hub Nat) :=
  (front, ({ id := 0, request := front } : Exchange Nat).scene 0 .closed hub)

/-- The shared state that the request leaves. -/
def passed (hub : Hub Nat) : Hub Nat := ((ofPairs.service front).run (arrives hub).2).2.notes.app

/-- The resolver for the second field cannot be made for the first request; the second request has
both made, and the third finds them. -/
theorem pairs_are_bound_once : ∃ (broken whole : List (Creation Nat)) (fault : BindFault),
    List.Forall₂ (fun v x => ofPairs.Visits v.1 0 flakyList pairTaker v.2 x)
      [arrives ⟨0, []⟩, arrives (passed ⟨0, []⟩), arrives (passed (passed ⟨0, []⟩))]
      [some ⟨broken, some fault⟩, some ⟨whole, none⟩, none] ∧
    passed ⟨0, []⟩ = ⟨2, []⟩ ∧ (passed ⟨2, []⟩).app = 4 := by
  have hreached : ∀ hub, ofPairs.Reaches front 0 (arrives hub).2 [] _ (arrives hub).2 :=
    fun hub => ⟨.nil _, rfl, rfl⟩
  obtain ⟨hall, -⟩ :=
    binding_is_lazy (d := ofPairs) (i := 0) (h := pairTaker) wiring_ofPairs rfl rfl
  obtain ⟨trials, hvisits, hpairwise⟩ := hall
    [arrives ⟨0, []⟩, arrives (passed ⟨0, []⟩), arrives (passed (passed ⟨0, []⟩))]
    (.cons_cons rfl (.cons_cons rfl (.singleton _)))
  obtain - | @⟨_, x, _, _, hfirst, hvisits⟩ := hvisits
  obtain - | @⟨_, y, _, _, hsecond, hvisits⟩ := hvisits
  obtain - | @⟨_, z, _, _, hthird, ⟨⟩⟩ := hvisits
  have hrefused : ∃ broken fault, x = some ⟨broken, some fault⟩ := by
    cases hfirst with
    | elsewhere unreached => exact absurd (hreached _) (unreached _ _ _)
    | ready _ bound => cases bound
    | made _ _ _ _ _ kept => cases kept
    | refused => exact ⟨_, _, rfl⟩
  have hmade : ∃ whole, y = some ⟨whole, none⟩ := by
    cases hsecond with
    | elsewhere unreached => exact absurd (hreached _) (unreached _ _ _)
    | ready _ bound => cases bound
    | made => exact ⟨_, rfl⟩
    | refused _ _ _ kept => cases kept
  obtain ⟨broken, fault, rfl⟩ := hrefused
  obtain ⟨whole, rfl⟩ := hmade
  have hnone : z = none := by
    have hlater := (List.pairwise_cons.mp (List.pairwise_cons.mp hpairwise).2).1
    exact hlater z (List.mem_singleton_self z) ⟨whole, rfl⟩
  subst hnone
  exact ⟨broken, whole, fault, .cons hfirst (.cons hsecond (.cons hthird .nil)), rfl, rfl⟩

end Sequence

end Dispatcher

end HttpDispatch
