import HttpDispatch.Proofs.Pipeline.Action

/-!
# The protocol of the callbacks

What happens between the result of a route and the end of its request, told by its moments: the
route is asked about a failure, error handlers are asked to deal with what is left of it, the
response is committed, the route is told about the end. `Dispatcher.Occurs` says that moments, one
after the other, lead from one scene to another and that nothing else happens meanwhile. Callbacks
may note what they like, so that for all dispatchers at once this leaves no doubt about which of
them were called.

* `Route.Judges`, `Rescues`, `Route.Hears`: which moments there are, and the failure that is left;
* `Dispatcher.ends_conclude`: the end of a request, from the result of its route on;
* `Dispatcher.misses_process`, `Dispatcher.passes_process`: the way of a request through the pipeline;
* `Dispatcher.callbacks_follow_protocol`: the same for the whole way of a request.
-/

namespace HttpDispatch

variable {σ α : Type}

theorem Attempt.returns_inHub {a : Attempt σ α} (h : a.run.Returns) : a.inHub.run.Returns :=
  Act.returns_through (fun _ _ => rfl) h

/-! ### Moments -/

/-- What may happen on the way from the result of a route to the end of its request, with the
answers that are given. -/
inductive Moment where
  /-- The route is asked about a failure. -/
  | onError (f : Failure) (answer : Except Failure Unit)
  /-- The error handler at a place is asked to deal with a failure. -/
  | rescue (place : Nat) (f : Failure) (answer : Bool)
  /-- The response is committed. -/
  | commit
  /-- The route is told about the end. -/
  | onComplete (error : Option Failure) (answer : Except Failure Unit)

/-- **The judgement of a route on its result**: what it is asked, and the failure that is left. It
is not asked if its handler could not be bound. -/
inductive Route.Judges (route : Route σ) : Except Fault Unit → List Moment → Option Failure → Prop
  | success : route.Judges (.ok ()) [] none
  | binding (f : BindFault) : route.Judges (.error (.binding f)) [] (some f.failure)
  | unasked (f : Failure) (h : route.onError = none) :
    route.Judges (.error (.failed f)) [] (some f)
  | swallowed (f : Failure) (h : route.onError.isSome) :
    route.Judges (.error (.failed f)) [.onError f (.ok ())] none
  | replaced (f replacement : Failure) (h : route.onError.isSome) :
    route.Judges (.error (.failed f)) [.onError f (.error replacement)] (some replacement)

/-- Error handlers, from a place on, are asked in order and do not deal with a failure. -/
def declined (f : Failure) (place count : Nat) : List Moment :=
  (List.range' place count).map fun k => .rescue k f false

/-- **Which of the given number of error handlers are asked**: none without a failure; otherwise one
after the other, up to the first that deals with it. -/
inductive Rescues (count : Nat) : Option Failure → List Moment → Prop
  | none : Rescues count none []
  | handled (f : Failure) {k : Nat} (h : k < count) :
    Rescues count (some f) (declined f 0 k ++ [.rescue k f true])
  | unhandled (f : Failure) : Rescues count (some f) (declined f 0 count)

/-- **What a route is told about the end**: the failure that is left, once, if it wants to know. -/
inductive Route.Hears (route : Route σ) (error : Option Failure) : List Moment → Prop
  | untold (h : route.onComplete = none) : route.Hears error []
  | told (h : route.onComplete.isSome) (answer : Except Failure Unit) :
    route.Hears error [.onComplete error answer]

/-- The callbacks of a route come to an end on a request. -/
structure Route.Returns (route : Route σ) (r : Request) : Prop where
  onError : ∀ {callback}, route.onError = some callback → ∀ f, (callback r f).run.Returns
  onComplete : ∀ {callback}, route.onComplete = some callback →
    ∀ error, (callback r error).run.Returns

namespace Dispatcher

variable (d : Dispatcher σ) (r : Request) (selected : Option (Route σ))

/-- One moment in the life of a request: who is called, and what that makes of the scene. -/
inductive Takes : Moment → Scene (Hub σ) → Scene (Hub σ) → Prop
  | onError {callback : Request → Failure → Attempt σ Unit} {f : Failure}
    {answer : Except Failure Unit} {s t : Scene (Hub σ)}
    (h : selected.bind Route.onError = some callback)
    (run : (callback r f).inHub.run.run s = (some answer, t)) : Takes (.onError f answer) s t
  | rescue {place : Nat} {h : ErrorHandler σ} {f : Failure} {answer : Bool}
    {s t : Scene (Hub σ)} (hplace : d.errorHandlers[place]? = some h)
    (run : (h.handle r f).inHub.run s = (some answer, t)) : Takes (.rescue place f answer) s t
  | commit {s : Scene (Hub σ)} :
    Takes .commit s { s with response := (s.response.apply .commit).2 }
  | onComplete {callback : Request → Option Failure → Attempt σ Unit} {error : Option Failure}
    {answer : Except Failure Unit} {s t : Scene (Hub σ)}
    (h : selected.bind Route.onComplete = some callback)
    (run : (callback r error).inHub.run.run s = (some answer, t)) :
    Takes (.onComplete error answer) s t

/-- **Moments lead from one scene to another**, one after the other. -/
inductive Occurs : Scene (Hub σ) → List Moment → Scene (Hub σ) → Prop
  | nil (s : Scene (Hub σ)) : Occurs s [] s
  | cons {s t u : Scene (Hub σ)} {m : Moment} {rest : List Moment}
    (first : d.Takes r selected m s t) (others : Occurs t rest u) : Occurs s (m :: rest) u

/-- An error handler crashes on a failure, when those before it have been asked. -/
inductive Breaks (f : Failure) : Scene (Hub σ) → Scene (Hub σ) → Prop
  | at {k : Nat} {h : ErrorHandler σ} {s t u : Scene (Hub σ)}
    (before : d.Occurs r selected s (declined f 0 k) t) (hplace : d.errorHandlers[k]? = some h)
    (run : (h.handle r f).inHub.run t = (none, u)) : Breaks f s u

/-- **The end of a request** from the result of its route on, in a scene: the failure that is left,
and the scene then. The route judges the result, error handlers deal with what is left, the response
is committed, the route is told; from then on the response stays as it is. The request has no end
only if an error handler crashes or, where these may crash, a callback of the route. -/
inductive Ends (mayCrash : Prop) (route : Route σ) (result : Except Fault Unit)
    (s : Scene (Hub σ)) : Option (Option Failure) × Scene (Hub σ) → Prop
  | finished {asked rescued told : List Moment} {error : Option Failure} {t u : Scene (Hub σ)}
    (judgement : route.Judges result asked error)
    (rescue : Rescues d.errorHandlers.length error rescued)
    (hearing : route.Hears error told)
    (before : d.Occurs r (some route) s (asked ++ rescued ++ [.commit]) t)
    (after : d.Occurs r (some route) t told u)
    (fixed : t.response.Fixed u.response) : Ends mayCrash route result s (some error, u)
  | crashed {asked : List Moment} {f : Failure} {t u : Scene (Hub σ)}
    (judgement : route.Judges result asked (some f))
    (before : d.Occurs r (some route) s asked t)
    (broken : d.Breaks r (some route) f t u) : Ends mayCrash route result s (none, u)
  | unanswered {callback : Request → Failure → Attempt σ Unit} {f : Failure} {t : Scene (Hub σ)}
    (may : mayCrash) (failed : result = .error (.failed f)) (h : route.onError = some callback)
    (run : (callback r f).inHub.run.run s = (none, t)) : Ends mayCrash route result s (none, t)
  | untold {asked rescued : List Moment} {error : Option Failure} {t u : Scene (Hub σ)}
    {callback : Request → Option Failure → Attempt σ Unit} (may : mayCrash)
    (judgement : route.Judges result asked error)
    (rescue : Rescues d.errorHandlers.length error rescued)
    (before : d.Occurs r (some route) s (asked ++ rescued ++ [.commit]) t)
    (h : route.onComplete = some callback)
    (run : (callback r error).inHub.run.run t = (none, u)) : Ends mayCrash route result s (none, u)

/-- **The end of a request that no route is for**: error handlers deal with that, and the response
is committed. -/
inductive Misses (s : Scene (Hub σ)) : Option (Progress (Hub σ)) × Scene (Hub σ) → Prop
  | finished {rescued : List Moment} {t : Scene (Hub σ)}
    (rescue : Rescues d.errorHandlers.length (some (noRoute r)) rescued)
    (moments : d.Occurs r none s (rescued ++ [.commit]) t) (committed : t.response.committed) :
    Misses s (some (.finished (some (noRoute r))), t)
  | crashed {t : Scene (Hub σ)} (broken : d.Breaks r none (noRoute r) s t) : Misses s (none, t)

/-- **The way of a request that a route is selected for**: the action of the route is carried out
with the variables of the path; the request ends with its result, at once or, for each verdict and
in each scene, when it is signalled. -/
inductive Passes (mayCrash : Prop) (sel : Selection (Route σ)) (s : Scene (Hub σ)) :
    Option (Progress (Hub σ)) × Scene (Hub σ) → Prop
  | crashed {t : Scene (Hub σ)}
    (action : (d.act r sel.index sel.entry.action).run (s.withVariables sel.pathVars) =
      (none, t)) : Passes mayCrash sel s (none, t)
  | settled {jobs : List (Act (Hub σ) Unit)} {result : Except Fault Unit} {t u : Scene (Hub σ)}
    {error : Option (Option Failure)}
    (action : (d.act r sel.index sel.entry.action).run (s.withVariables sel.pathVars) =
      (some (.settled jobs result), t))
    (ends : d.Ends r mayCrash sel.entry result t (error, u)) :
    Passes mayCrash sel s (error.map fun error => ⟨jobs, .finished error⟩, u)
  | waiting {jobs : List (Act (Hub σ) Unit)} {resume : Verdict → Act (Hub σ) (Option Failure)}
    {t : Scene (Hub σ)}
    (action : (d.act r sel.index sel.entry.action).run (s.withVariables sel.pathVars) =
      (some (.waiting jobs), t))
    (ends : ∀ v u, d.Ends r mayCrash sel.entry (ofVerdict v) u ((resume v).run u)) :
    Passes mayCrash sel s (some ⟨jobs, .waiting resume⟩, t)

variable {d r selected} {s t u : Scene (Hub σ)} {xs ys : List Moment} {f : Failure}

theorem Occurs.single {m : Moment} (h : d.Takes r selected m s t) : d.Occurs r selected s [m] t :=
  .cons h (.nil t)

theorem Occurs.append (h : d.Occurs r selected s xs t) (k : d.Occurs r selected t ys u) :
    d.Occurs r selected s (xs ++ ys) u := by
  induction h with
  | nil => exact k
  | cons first _ ih => exact .cons first (ih k)

theorem Takes.evolves {m : Moment} (h : d.Takes r selected m s t) :
    s.response.Evolves t.response := by
  cases h with
  | onError _ run => exact Act.evolves_of_run run
  | rescue _ run => exact Act.evolves_of_run run
  | commit => exact Response.evolves_apply s.response .commit
  | onComplete _ run => exact Act.evolves_of_run run

theorem Occurs.evolves (h : d.Occurs r selected s xs t) : s.response.Evolves t.response := by
  induction h with
  | nil => exact .refl _
  | cons first _ ih => exact first.evolves.trans ih

/-! ### Error handlers -/

@[simp] theorem declined_succ (f : Failure) (place count : Nat) :
    declined f place (count + 1) = .rescue place f false :: declined f (place + 1) count := rfl

theorem rescue_cons (r : Request) (f : Failure) (h : ErrorHandler σ)
    (rest : List (ErrorHandler σ)) : (rescue r f (h :: rest)).inHub =
      (h.handle r f).inHub >>= fun handled =>
        Act.inHub (if handled then return () else rescue r f rest) := Act.through_bind ..

/-- What error handlers, from a place on, come to: they are asked in order, up to the first that
deals with the failure or to the last, unless one of them crashes. -/
theorem run_rescue (selected : Option (Route σ)) : ∀ (handlers : List (ErrorHandler σ))
    (place : Nat) (_ : d.errorHandlers.drop place = handlers) (s : Scene (Hub σ)),
    (∃ rescued t, (rescue r f handlers).inHub.run s = (some (), t) ∧
      d.Occurs r selected s rescued t ∧
      ((∃ k < handlers.length, rescued = declined f place k ++ [.rescue (place + k) f true]) ∨
        rescued = declined f place handlers.length)) ∨
    ∃ k h t u, d.Occurs r selected s (declined f place k) t ∧
      d.errorHandlers[place + k]? = some h ∧ (h.handle r f).inHub.run t = (none, u) ∧
      (rescue r f handlers).inHub.run s = (none, u)
  | [], place, _, s => .inl ⟨[], s, rfl, .nil s, .inr rfl⟩
  | h :: rest, place, hdrop, s => by
    have hplace : d.errorHandlers[place]? = some h := by
      rw [← List.head?_drop, hdrop]
      rfl
    have hrest : d.errorHandlers.drop (place + 1) = rest := by
      rw [← List.tail_drop, hdrop]
      rfl
    rcases hrun : (h.handle r f).inHub.run s with ⟨answer, t⟩
    rw [rescue_cons]
    match answer, hrun with
    | none, hrun =>
      exact .inr ⟨0, h, s, t, .nil s, hplace, hrun, Act.run_bind_of_none hrun⟩
    | some true, hrun =>
      rw [Act.run_bind_of_some hrun]
      exact .inl ⟨_, t, rfl, .single (.rescue hplace hrun), .inl ⟨0, Nat.zero_lt_succ _, rfl⟩⟩
    | some false, hrun =>
      rw [Act.run_bind_of_some hrun]
      have hfirst : d.Takes r selected (.rescue place f false) s t := .rescue hplace hrun
      rcases run_rescue selected rest (place + 1) hrest t with
        ⟨rescued, u, hu, hoccurs, hasked⟩ | ⟨k, h', t', u, hoccurs, hplace', hcrash, hu⟩
      · refine .inl ⟨.rescue place f false :: rescued, u, hu, .cons hfirst hoccurs, ?_⟩
        rcases hasked with ⟨k, hk, rfl⟩ | rfl
        · refine .inl ⟨k + 1, Nat.succ_lt_succ hk, ?_⟩
          rw [declined_succ, List.cons_append, Nat.add_assoc, Nat.add_comm 1 k]
        · exact .inr rfl
      · refine .inr ⟨k + 1, h', t', u, .cons hfirst hoccurs, ?_, hcrash, hu⟩
        rw [← hplace', Nat.add_assoc, Nat.add_comm 1 k]

/-- **Error handlers deal with a failure** as they should, or one of them crashes. -/
theorem run_handleFailure (selected : Option (Route σ)) (f : Failure) (s : Scene (Hub σ)) :
    (∃ rescued t, (d.handleFailure r f).run s = (some (), t) ∧
      Rescues d.errorHandlers.length (some f) rescued ∧ d.Occurs r selected s rescued t) ∨
    ∃ t, (d.handleFailure r f).run s = (none, t) ∧ d.Breaks r selected f s t := by
  rcases run_rescue (f := f) selected d.errorHandlers 0 List.drop_zero s with
    ⟨rescued, t, ht, hoccurs, hasked⟩ | ⟨k, h, t, u, hoccurs, hplace, hcrash, hu⟩
  · refine .inl ⟨rescued, t, ht, ?_, hoccurs⟩
    rcases hasked with ⟨k, hk, rfl⟩ | rfl
    · rw [Nat.zero_add]
      exact .handled f hk
    · exact .unhandled f
  · rw [Nat.zero_add] at hplace
    exact .inr ⟨u, hu, .at hoccurs hplace hcrash⟩

/-! ### The end of a request -/

section End

variable {route : Route σ} {result : Except Fault Unit} {error : Option Failure}

theorem run_remaining (d : Dispatcher σ) (r : Request) (route : Route σ)
    (result : Except Fault Unit) (s : Scene (Hub σ)) :
    (∃ asked error t, (remaining r route result).run s = (some error, t) ∧
      route.Judges result asked error ∧ d.Occurs r (some route) s asked t) ∨
    ∃ callback f t, result = .error (.failed f) ∧ route.onError = some callback ∧
      (callback r f).inHub.run.run s = (none, t) ∧
      (remaining r route result).run s = (none, t) := by
  match result with
  | .ok () => exact .inl ⟨[], none, s, rfl, .success, .nil s⟩
  | .error (.binding f) => exact .inl ⟨[], some f.failure, s, rfl, .binding f, .nil s⟩
  | .error (.failed f) =>
    unfold remaining reconsider
    cases hcallback : route.onError with
    | none => exact .inl ⟨[], some f, s, rfl, .unasked f hcallback, .nil s⟩
    | some callback =>
      have hsome : route.onError.isSome := by rw [hcallback]; rfl
      rcases hrun : (callback r f).inHub.run.run s with ⟨answer, t⟩
      dsimp only
      match answer, hrun with
      | none, hrun => exact .inr ⟨callback, f, t, rfl, rfl, hrun, Act.run_bind_of_none hrun⟩
      | some (.ok ()), hrun =>
        have hasked : d.Takes r (some route) (.onError f (.ok ())) s t := .onError hcallback hrun
        rw [Act.run_bind_of_some hrun]
        exact .inl ⟨_, none, t, rfl, .swallowed f hsome, .single hasked⟩
      | some (.error f'), hrun =>
        have hasked : d.Takes r (some route) (.onError f (.error f')) s t := .onError hcallback hrun
        rw [Act.run_bind_of_some hrun]
        exact .inl ⟨_, some f', t, rfl, .replaced f f' hsome, .single hasked⟩

/-- A route is told about the end. -/
def tell (r : Request) (route : Route σ) (error : Option Failure) : Act (Hub σ) (Option Failure) :=
  do
  match route.onComplete with
  | some callback => let _ ← (callback r error).inHub.run
  | none => pure ()
  return error

theorem run_tell (d : Dispatcher σ) (r : Request) (route : Route σ) (error : Option Failure)
    (s : Scene (Hub σ)) :
    (∃ told t, (tell r route error).run s = (some error, t) ∧ route.Hears error told ∧
      d.Occurs r (some route) s told t) ∨
    ∃ callback t, route.onComplete = some callback ∧
      (callback r error).inHub.run.run s = (none, t) ∧
      (tell r route error).run s = (none, t) := by
  unfold tell
  cases hcallback : route.onComplete with
  | none => exact .inl ⟨[], s, rfl, .untold hcallback, .nil s⟩
  | some callback =>
    have hsome : route.onComplete.isSome := by rw [hcallback]; rfl
    rcases hrun : (callback r error).inHub.run.run s with ⟨answer, t⟩
    cases answer with
    | none => exact .inr ⟨callback, t, rfl, hrun, Act.run_bind_of_none hrun⟩
    | some answer =>
      have htold : d.Takes r (some route) (.onComplete error answer) s t := .onComplete hcallback hrun
      refine .inl ⟨_, t, ?_, .told hsome answer, .single htold⟩
      rw [Act.run_bind_of_some hrun]
      rfl

theorem conclude_eq (result : Except Fault Unit) :
    d.conclude r route result = remaining r route result >>= fun error =>
      (match error with | some f => d.handleFailure r f | none => pure ()) >>= fun _ =>
        Act.edit .commit >>= fun _ => tell r route error := by
  unfold conclude tell
  congr 1
  funext error
  cases error <;> rfl

/-- **The end of a request follows the protocol**, whatever the result of its route. -/
theorem ends_conclude (result : Except Fault Unit) (s : Scene (Hub σ)) :
    d.Ends r True route result s ((d.conclude r route result).run s) := by
  rcases run_remaining d r route result s with
    ⟨asked, error, s₁, hremaining, hjudges, hasked⟩ |
      ⟨callback, f, t, hfailed, hcallback, hcrash, hremaining⟩
  · rw [conclude_eq, Act.run_bind_of_some hremaining]
    -- from here on the failure that is left is known to have been dealt with
    have hrest : ∀ {rescued : List Moment} {s₂ : Scene (Hub σ)}
        (_ : Rescues d.errorHandlers.length error rescued)
        (_ : d.Occurs r (some route) s₁ rescued s₂),
        d.Ends r True route result s
          ((Act.edit .commit >>= fun _ => tell r route error).run s₂) := by
      intro rescued s₂ hrescues hrescued
      have hcommit : d.Takes r (some route) .commit s₂ _ := .commit
      have hbefore := (hasked.append hrescued).append (.single hcommit)
      have hrun : (Act.edit .commit >>= fun _ => tell r route error).run s₂ =
        (tell r route error).run { s₂ with response := (s₂.response.apply .commit).2 } := rfl
      rw [hrun]
      rcases run_tell d r route error
        { s₂ with response := (s₂.response.apply .commit).2 } with
        ⟨told, u, htell, hhears, htold⟩ | ⟨callback, u, hcallback, hcrash, htell⟩
      · rw [htell]
        exact .finished hjudges hrescues hhears hbefore htold (htold.evolves.fixed rfl)
      · rw [htell]
        exact .untold trivial hjudges hrescues hbefore hcallback hcrash
    cases error with
    | none => exact hrest .none (.nil s₁)
    | some f =>
      rcases d.run_handleFailure (r := r) (some route) f s₁ with
        ⟨rescued, s₂, hrun, hrescues, hrescued⟩ | ⟨s₂, hrun, hbreaks⟩
      · rw [Act.run_bind_of_some hrun]
        exact hrest hrescues hrescued
      · rw [Act.run_bind_of_none hrun]
        exact .crashed hjudges hasked hbreaks
  · rw [conclude_eq, Act.run_bind_of_none hremaining]
    exact .unanswered trivial hfailed hcallback hcrash

variable {mayCrash : Prop}

theorem Ends.of_returns {x : Option (Option Failure) × Scene (Hub σ)}
    (h : d.Ends r mayCrash route result s x) (hreturns : route.Returns r) :
    d.Ends r False route result s x := by
  cases h with
  | finished judgement rescue hearing before after fixed =>
    exact .finished judgement rescue hearing before after fixed
  | crashed judgement before broken => exact .crashed judgement before broken
  | unanswered _ _ hcallback hcrash =>
    obtain ⟨answer, t, ht⟩ := Attempt.returns_inHub (hreturns.onError hcallback _) s
    rw [hcrash] at ht
    cases ht
  | untold _ _ _ _ hcallback hcrash =>
    obtain ⟨answer, t, ht⟩ := Attempt.returns_inHub (hreturns.onComplete hcallback _) _
    rw [hcrash] at ht
    cases ht

theorem Ends.committed (h : d.Ends r mayCrash route result s (some error, t)) :
    t.response.committed := by
  cases h with
  | finished _ _ _ _ _ fixed => exact fixed.after

end End

/-! ### The whole way -/

theorem run_close (h : s.response.committed) (error : Option Failure) :
    (d.close r error).run s = (some error, s) := by
  show (if !s.response.committed then _ else _ : Act (Hub σ) (Option Failure)).run s = _
  rw [h]
  rfl

theorem run_andThen_close (h : s.response.committed) {jobs : List (Act (Hub σ) Unit)}
    {error : Option Failure} : (Progress.andThen ⟨jobs, .finished error⟩ (d.close r)).run s =
      (some ⟨jobs, .finished error⟩, s) :=
  Act.run_bind_of_some (run_close h error)

theorem Ends.close {mayCrash : Prop} {route : Route σ} {result : Except Fault Unit}
    {a : Act (Hub σ) (Option Failure)} (h : d.Ends r mayCrash route result s (a.run t)) :
    d.Ends r mayCrash route result s ((a >>= d.close r).run t) := by
  rcases hrun : a.run t with ⟨o, u⟩
  rw [hrun] at h
  cases o with
  | none =>
    rw [Act.run_bind_of_none hrun]
    exact h
  | some error =>
    rwa [Act.run_bind_of_some hrun, run_close h.committed]

theorem service_eq (h : d.filters = []) :
    d.service r = d.process r >>= fun p => p.andThen (d.close r) := by
  unfold service
  rw [h]
  rfl

theorem misses_process (h : select Route.mapping r d.routes = none) (s : Scene (Hub σ)) :
    d.Misses r s ((d.process r).run s) := by
  have hprocess : d.process r = d.handleFailure r (noRoute r) >>= fun _ =>
      Act.edit .commit >>= fun _ => pure (.finished (some (noRoute r))) := by
    unfold process
    rw [h]
  rw [hprocess]
  rcases d.run_handleFailure (r := r) none (noRoute r) s with
    ⟨rescued, t, hrun, hrescues, hoccurs⟩ | ⟨t, hrun, hbreaks⟩
  · rw [Act.run_bind_of_some hrun]
    exact .finished hrescues (hoccurs.append (.single .commit)) rfl
  · rw [Act.run_bind_of_none hrun]
    exact .crashed hbreaks

/-- What follows on the action of a route. -/
def follow (d : Dispatcher σ) (r : Request) (route : Route σ) :
    Outturn (Hub σ) → Act (Hub σ) (Progress (Hub σ))
  | .settled jobs result => do return ⟨jobs, .finished (← d.conclude r route result)⟩
  | .waiting jobs => return ⟨jobs, .waiting fun v => d.conclude r route (ofVerdict v)⟩

theorem process_eq {sel : Selection (Route σ)} (h : select Route.mapping r d.routes = some sel) :
    d.process r = Act.bindVariables sel.pathVars >>= fun _ =>
      d.act r sel.index sel.entry.action >>= d.follow r sel.entry := by
  unfold process
  rw [h]
  refine congrArg (Act.bindVariables sel.pathVars >>= ·) (funext fun _ => ?_)
  refine congrArg (d.act r sel.index sel.entry.action >>= ·) (funext fun o => ?_)
  cases o <;> rfl

theorem passes_process {sel : Selection (Route σ)} (h : select Route.mapping r d.routes = some sel)
    (s : Scene (Hub σ)) : d.Passes r True sel s ((d.process r).run s) := by
  rw [process_eq h, Act.run_bind_of_some (Act.run_bindVariables ..)]
  rcases hact : (d.act r sel.index sel.entry.action).run (s.withVariables sel.pathVars)
    with ⟨o, t⟩
  match o, hact with
  | none, hact =>
    rw [Act.run_bind_of_none hact]
    exact .crashed hact
  | some (.waiting jobs), hact =>
    rw [Act.run_bind_of_some hact]
    exact .waiting hact fun v u => ends_conclude (ofVerdict v) u
  | some (.settled jobs result), hact =>
    have hends : d.Ends r True sel.entry result t ((d.conclude r sel.entry result).run t) :=
      ends_conclude result t
    rw [Act.run_bind_of_some hact]
    rcases hrun : (d.conclude r sel.entry result).run t with ⟨error, u⟩
    rw [hrun] at hends
    have hfollow : (d.follow r sel.entry (.settled jobs result)).run t =
        (error.map fun error => ⟨jobs, .finished error⟩, u) := by
      cases error with
      | none => exact Act.run_bind_of_none hrun
      | some error => exact Act.run_bind_of_some hrun
    rw [hfollow]
    exact .settled hact hends

theorem misses_service (hfilters : d.filters = []) (h : select Route.mapping r d.routes = none)
    (s : Scene (Hub σ)) : d.Misses r s ((d.service r).run s) := by
  have hmisses := misses_process h s
  rw [service_eq hfilters]
  rcases hrun : (d.process r).run s with ⟨o, t⟩
  rw [hrun] at hmisses
  cases hmisses with
  | finished rescue moments committed =>
    rw [Act.run_bind_of_some hrun, Progress.finished, run_andThen_close committed]
    exact .finished rescue moments committed
  | crashed broken =>
    rw [Act.run_bind_of_none hrun]
    exact .crashed broken

theorem passes_service (hfilters : d.filters = []) {sel : Selection (Route σ)}
    (h : select Route.mapping r d.routes = some sel) (hreturns : sel.entry.Returns r)
    (s : Scene (Hub σ)) : d.Passes r False sel s ((d.service r).run s) := by
  have hpasses := passes_process h s
  rw [service_eq hfilters]
  rcases hrun : (d.process r).run s with ⟨o, t⟩
  rw [hrun] at hpasses
  cases hpasses with
  | crashed action =>
    rw [Act.run_bind_of_none hrun]
    exact .crashed action
  | waiting action ends =>
    rw [Act.run_bind_of_some hrun]
    exact .waiting action fun v u => ((ends v u).of_returns hreturns).close
  | @settled jobs result u _ error action ends =>
    have hends := ends.of_returns hreturns
    cases error with
    | none =>
      rw [Act.run_bind_of_none hrun]
      exact .settled action hends
    | some error =>
      rw [Act.run_bind_of_some hrun, run_andThen_close ends.committed]
      exact .settled action hends

/-- **Callbacks follow the protocol on every path.** Where no filters stand around it, a dispatcher
leads each request, in each scene, to its end as follows, if the callbacks of its routes come to
theirs:

* if no route is for the request, no callback is called, and the failure that is left is that;
* if a route is selected, its action is carried out, and from its result on, which may be signalled
  later, the request ends as `Ends` says, without a callback of the route that crashes;
* an action fails by binding exactly if it is a handler that cannot be bound. -/
theorem callbacks_follow_protocol (hfilters : d.filters = [])
    (hreturns : ∀ route ∈ d.routes, route.Returns r) (s : Scene (Hub σ)) :
    (select Route.mapping r d.routes = none → d.Misses r s ((d.service r).run s)) ∧
    (∀ sel, select Route.mapping r d.routes = some sel →
      d.Passes r False sel s ((d.service r).run s)) ∧
    ∀ (index : Nat) (action : Action σ) (jobs : List (Act (Hub σ) Unit)) (f : BindFault)
      (s t : Scene (Hub σ)),
      (d.act r index action).run s = (some (.settled jobs (.error (.binding f))), t) ↔
        jobs = [] ∧ ∃ h, action = .handler h ∧
          (d.bindHandler index h).run.run s = (some (.error f), t) :=
  ⟨fun h => misses_service hfilters h s,
    fun _ h => passes_service hfilters h (hreturns _ (mem_of_select h)) s,
    fun _ _ _ _ _ _ => run_act_binding_iff⟩

/-- A route that fails, puts another failure in place of its own, and fails when it is told. -/
def stubborn : Route Unit where
  mapping := .of "/"
  action := .now fun _ => throw (.internal "foo")
  onError := some fun _ _ => do
    ExceptT.lift (Act.edit (.setStatus .notFound))
    throw (.notFound "bar")
  onComplete := some fun _ _ => throw (.internal "ignored")

/-- The dispatcher of that route alone. -/
def ofStubborn : Dispatcher Unit := ⟨[stubborn], .empty, [], [defaultErrorHandler false]⟩

/-- A request for that route. -/
def front : Request := ⟨.get, "/", none, 1, .empty, []⟩

theorem stubborn_follows_protocol : ∃ sel, sel.entry = stubborn ∧
    ∀ s, ofStubborn.Passes front False sel s ((ofStubborn.service front).run s) := by
  have hreturns : ∀ route ∈ ofStubborn.routes, route.Returns front := by
    intro route hroute
    rw [List.mem_singleton.mp hroute]
    refine ⟨fun h f s => ?_, fun h error s => ?_⟩
    · cases h
      exact ⟨_, _, rfl⟩
    · cases h
      exact ⟨_, _, rfl⟩
  have hselect : select Route.mapping front ofStubborn.routes = some ⟨stubborn, 0, .empty⟩ := rfl
  refine ⟨⟨stubborn, 0, .empty⟩, rfl, fun s => ?_⟩
  obtain ⟨-, hpasses, -⟩ := callbacks_follow_protocol (d := ofStubborn) rfl hreturns s
  exact hpasses _ hselect

end Dispatcher

end HttpDispatch
