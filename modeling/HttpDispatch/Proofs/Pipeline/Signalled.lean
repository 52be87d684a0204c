import HttpDispatch.Proofs.Pipeline.Waiting

/-!
# The first signal decides

A handler may leave its result to a signal, and let others signal who go on by themselves. Whatever
they do and in whatever order, the request ends as if a handler had done at once all that they have
done before it goes on, and had returned the verdict that was signalled first.

* `Action.redo`: the action that does at once what others have done;
* `Dispatcher.Fair`: all treat completers as such, so what they do consists of deeds;
* `Exchange.start_redo`: a handler that does at once what was done has the exchange end in the same
  way;
* `Exchange.awaits_or_resumes`, `Exchange.Awaits.awaits_or_resumes`: an exchange waits or goes on;
* `Exchange.first_signal_decides`: the first signal decides.
-/

namespace HttpDispatch

variable {σ : Type}

/-! ### Handlers that do the same at once -/

/-- Takes steps in writing the response. -/
def Act.edits : List Response.Op → Act σ Unit
  | [] => return ()
  | op :: ops => do
    Act.edit op
    edits ops

/-- The notes as the application sees them. -/
def Notes.forApp (n : Notes (Hub σ)) : Notes σ := n.withApp n.app.app

/-- **An action that does at once what others have done**: it takes the steps in writing, leaves the
notes, and returns the verdict. -/
def Action.redo (ops : List Response.Op) (notes : Notes σ) (v : Verdict) : Action σ :=
  .now fun _ => ExceptT.mk do
    Act.edits ops
    Act.note (fun _ => notes) fun _ => return v

namespace Dispatcher

/-- The dispatcher with another action for the route at a place. -/
def withAction (d : Dispatcher σ) (i : Nat) (action : Action σ) : Dispatcher σ :=
  { d with routes := d.routes.modify i fun route => { route with action } }

variable {d : Dispatcher σ} {r : Request} {sel : Selection (Route σ)} {s : Scene (Hub σ)}

@[simp] theorem run_edits (ops : List Response.Op) (s : Scene (Hub σ)) :
    (Act.edits ops : Act σ Unit).inHub.run s =
      (some (), { s with response := s.response.applyAll ops }) := by
  induction ops generalizing s with
  | nil => rfl
  | cons op ops ih => exact ih _

theorem run_redo (i : Nat) (ops : List Response.Op) (notes : Notes σ) (v : Verdict)
    (s : Scene (Hub σ)) : (d.act r i (.redo ops notes v)).run s = (some (.settled [] (ofVerdict v)),
      ⟨s.response.applyAll ops, notes.withApp ⟨notes.app, s.notes.app.bound⟩⟩) := by
  have hact : d.act r i (.redo ops notes v) = ((Act.edits ops >>= fun _ =>
      Act.note (fun _ => notes) fun _ => pure v : Act σ Verdict).inHub >>= fun result =>
        pure (.settled [] (ofVerdict result))) := rfl
  have hedits : (Act.edits ops >>= fun _ =>
      Act.note (fun _ => notes) fun _ => pure v : Act σ Verdict).inHub =
        (Act.edits ops).inHub >>= fun _ => (Act.note (fun _ => notes) fun _ => pure v).inHub :=
    Act.through_bind ..
  rw [hact, hedits, bind_assoc, Act.run_bind_of_some (run_edits ops s)]
  rfl

theorem select_withAction (h : select Route.mapping r d.routes = some sel) (action : Action σ) :
    select Route.mapping r (d.withAction sel.index action).routes =
      some ⟨{ sel.entry with action }, sel.index, sel.pathVars⟩ := by
  have hbest := select_eq_some_iff.mp h
  refine select_eq_some_iff.mpr ⟨?_, hbest.pathVars, fun j x hx hsome => ?_⟩
  · show (d.routes.modify sel.index _)[sel.index]? = _
    rw [List.getElem?_modify_eq, hbest.entry]
    rfl
  · have hx : (d.routes.modify sel.index fun route => { route with action })[j]? = some x := hx
    rw [List.getElem?_modify] at hx
    obtain ⟨y, hy, rfl⟩ := Option.map_eq_some_iff.mp hx
    have hmapping : (if sel.index = j then { y with action } else y).mapping = y.mapping := by
      split <;> rfl
    rw [hmapping] at hsome ⊢
    exact hbest.best j y hy hsome

theorem ending_withAction (i : Nat) (action : Action σ) (route : Route σ)
    (leaves : List (Leave σ)) (result : Except Fault Unit) :
    (d.withAction i action).ending r { route with action } leaves result =
      d.ending r route leaves result := rfl

/-! ### Those who treat completers as such -/

/-- **All who have to do with a request treat completers as such**: the handler `f` of its route and
what goes on beside it may signal, and nobody else has anything to do with completers. -/
structure Fair (d : Dispatcher σ) (r : Request) (route : Route σ)
    (f : Request → Act σ (Plan σ)) : Prop where
  handler : (f r).Fair true
  jobs : ∀ {s plan t}, (f r).inHub.run s = (some plan, t) → ∀ job ∈ plan.jobs, job.Fair true
  leaves : ∀ {s leaves t}, Enters r d.filters s leaves t →
    ∀ leave ∈ leaves, ∀ error, (leave error).Fair false
  errorHandlers : ∀ h ∈ d.errorHandlers, ∀ f, (h.handle r f).Fair false
  onError : ∀ callback, route.onError = some callback → ∀ f, (callback r f).run.Fair false
  onComplete : ∀ callback, route.onComplete = some callback →
    ∀ error, (callback r error).run.Fair false

open Act (hasDeeds_pure hasDeeds_bind hasDeeds_inHub hasDeeds_edit hasDeeds_response)

theorem hasDeeds_handleFailure (h : ∀ k ∈ d.errorHandlers, ∀ f, (k.handle r f).Fair false)
    (f : Failure) : (d.handleFailure r f).HasDeeds := by
  have hrescue : ∀ handlers : List (ErrorHandler σ), (∀ k ∈ handlers, k ∈ d.errorHandlers) →
      (rescue r f handlers).inHub.HasDeeds := by
    intro handlers
    induction handlers with
    | nil => exact fun _ => hasDeeds_pure ()
    | cons k rest ih =>
      intro hmem
      have hrescue : (rescue r f (k :: rest)).inHub = (k.handle r f).inHub >>= fun b =>
          Act.inHub (if b then return () else rescue r f rest) := Act.through_bind ..
      rw [hrescue]
      refine hasDeeds_bind (hasDeeds_inHub (h k (hmem k List.mem_cons_self) f)) fun b => ?_
      cases b with
      | true => exact hasDeeds_pure ()
      | false => exact ih fun k hk => hmem k (List.mem_cons_of_mem _ hk)
  exact hrescue d.errorHandlers fun _ hk => hk

theorem hasDeeds_unwind {leaves : List (Leave σ)}
    (h : ∀ leave ∈ leaves, ∀ error, (leave error).Fair false) (error : Option Failure) :
    (unwind leaves error).HasDeeds := by
  induction leaves generalizing error with
  | nil => exact hasDeeds_pure error
  | cons leave leaves ih =>
    exact hasDeeds_bind (hasDeeds_inHub (h leave List.mem_cons_self error))
      (ih fun leave hleave => h leave (List.mem_cons_of_mem _ hleave))

theorem hasDeeds_close (h : ∀ k ∈ d.errorHandlers, ∀ f, (k.handle r f).Fair false)
    (error : Option Failure) : (d.close r error).HasDeeds := by
  refine hasDeeds_bind hasDeeds_response fun response => ?_
  split
  · cases error with
    | none => exact hasDeeds_bind (hasDeeds_edit _) fun _ => hasDeeds_pure _
    | some f => exact hasDeeds_bind (hasDeeds_handleFailure h f) fun _ =>
        hasDeeds_bind (hasDeeds_edit _) fun _ => hasDeeds_pure _
  · exact hasDeeds_pure _

/-- **What follows on the result of a route** consists of deeds. -/
theorem Fair.hasDeeds_ending {route : Route σ} {f : Request → Act σ (Plan σ)} (h : d.Fair r route f)
    {leaves : List (Leave σ)} {t : Scene (Hub σ)} (entered : Enters r d.filters s leaves t)
    (result : Except Fault Unit) : (d.ending r route leaves.reverse result).HasDeeds := by
  have hjudged : (remaining r route result).HasDeeds := by
    match result with
    | .ok () => exact hasDeeds_pure _
    | .error (.binding f) => exact hasDeeds_pure _
    | .error (.failed f) =>
      unfold remaining reconsider
      cases hcallback : route.onError with
      | none => exact hasDeeds_pure _
      | some callback =>
        refine hasDeeds_bind (hasDeeds_inHub (h.onError callback hcallback f)) fun x => ?_
        rcases x with _ | ⟨⟩ <;> exact hasDeeds_pure _
  have htold : ∀ error, (tell r route error).HasDeeds := by
    intro error
    unfold tell
    cases hcallback : route.onComplete with
    | none => exact hasDeeds_pure _
    | some callback =>
      exact hasDeeds_bind (hasDeeds_inHub (h.onComplete callback hcallback error)) fun _ =>
        hasDeeds_pure _
  unfold ending
  rw [conclude_eq]
  refine hasDeeds_bind (hasDeeds_bind hjudged fun error => hasDeeds_bind ?_ fun _ =>
    hasDeeds_bind (hasDeeds_edit _) fun _ => htold error) fun error =>
      hasDeeds_bind (hasDeeds_unwind (fun leave hleave => ?_) error)
        (hasDeeds_close h.errorHandlers)
  · cases error with
    | none => exact hasDeeds_pure _
    | some f => exact hasDeeds_handleFailure h.errorHandlers f
  · exact h.leaves entered leave (List.mem_reverse.mp hleave)

end Dispatcher

namespace Exchange

variable {e e' : Exchange σ} {hub hub' : Hub σ} {d : Dispatcher σ} {sel : Selection (Route σ)}
  {f : Request → Act σ (Plan σ)} {before : List Deed} {s t : Scene (Hub σ)}
  {x : Option (Option Failure)} {signal : Promise Verdict} {place : Nat}

/-- **A handler that does at once what was done** has the exchange end in the same way. -/
theorem start_redo {leaves : List (Leave σ)} {c : Scene (Hub σ)} {v : Verdict}
    (hfresh : e.runs = []) (hselect : select Route.mapping e.request d.routes = some sel)
    (entered : Enters e.request d.filters (e.scene 0 .closed hub) leaves c)
    (hresponse : s.response =
      (c.withVariables sel.pathVars).response.applyAll (Deed.writes before))
    (hbound : s.notes.app.bound = (c.withVariables sel.pathVars).notes.app.bound)
    (hrun : (d.ending e.request sel.entry leaves.reverse (Dispatcher.ofVerdict v)).run s = (x, t)) :
    e.start (d.withAction sel.index (.redo (Deed.writes before) s.notes.forApp v)) hub =
      (e.ended [] x t, t.notes.app) := by
  have hscene : (⟨(c.withVariables sel.pathVars).response.applyAll
      (Deed.writes before), s.notes.forApp.withApp
        ⟨s.notes.forApp.app, (c.withVariables sel.pathVars).notes.app.bound⟩⟩ :
          Scene (Hub σ)) = s := by
    rw [← hresponse, ← hbound]
    rfl
  let redone := d.withAction sel.index (.redo (Deed.writes before) s.notes.forApp v)
  have hredo := Dispatcher.run_redo (d := redone) (r := e.request) sel.index
    (Deed.writes before) s.notes.forApp v (c.withVariables sel.pathVars)
  rw [hscene] at hredo
  have hservice := Dispatcher.run_service_of_settled (d := redone) entered
    (Dispatcher.select_withAction hselect _) hredo
  rw [Dispatcher.ending_withAction, hrun] at hservice
  refine start_eq_ended ?_
  rw [hfresh]
  exact hservice

/-! ### Going on -/

/-- What goes on beside a run does its deeds, if it treats its completer as such. -/
theorem exists_works {jobs : List (Act (Hub σ) Unit)}
    (hjobs : ∀ job ∈ jobs, ∃ a : Act σ Unit, a.Fair true ∧ job = a.inHub)
    (hhandles : jobs.length ≤ signal.handles) :
    ∃ ds signal' e' hub', Works place jobs signal e hub ds signal' e' hub' := by
  induction jobs generalizing signal e hub with
  | nil => exact ⟨_, _, _, _, .nil signal e hub⟩
  | cons job jobs ih =>
    obtain ⟨a, hfair, rfl⟩ := hjobs _ List.mem_cons_self
    rw [List.length_cons] at hhandles
    obtain ⟨ds, x, t, hdoes, hle⟩ :=
      Act.exists_does a hfair (e.scene place signal hub) fun _ => Nat.zero_lt_of_lt hhandles
    have hrest : jobs.length ≤ t.notes.signal.drop.handles := Nat.le_pred_of_lt (hhandles.trans hle)
    obtain ⟨ds', signal', e', hub', hworks⟩ :=
      ih (fun job hjob => hjobs job (List.mem_cons_of_mem _ hjob)) hrest
    exact ⟨_, _, _, _, .cons hdoes hworks⟩

/-- **A call that returns** has the exchange wait, or go on at once. -/
theorem awaits_or_resumes (fair : d.Fair e.request sel.entry f) {leaves : List (Leave σ)}
    {c u : Scene (Hub σ)} {plan : Plan σ}
    (entered : Enters e.request d.filters (e.scene 0 .closed hub) leaves c)
    (hrun : (f e.request).inHub.run
      ((c.withVariables sel.pathVars).withSignal .new) = (some plan, u)) :
    (∃ ds, e.Awaits d hub sel f ds (e.start d hub).1 (e.start d hub).2) ∨
      ∃ ds s mid, e.Resumes d hub sel f ds s mid (e.start d hub).1 (e.start d hub).2 := by
  obtain ⟨ds, x, t, hdoes, -⟩ := Act.exists_does _ fair.handler
    ((c.withVariables sel.pathVars).withSignal .new) fun _ => Nat.zero_lt_one
  cases hdoes.run.symm.trans hrun
  have hcalls : e.Calls d hub sel f leaves _ ds plan _ := .intro entered hdoes
  cases hpoll : ({ u.notes.signal with handles := plan.held + plan.jobs.length } :
    Promise Verdict).poll with
  | none => exact .inl ⟨_, .intro hcalls hpoll .refl⟩
  | some v =>
    obtain ⟨mid, x, t, hends⟩ := fair.hasDeeds_ending entered
      (Dispatcher.ofVerdict (v.getD (.error abandoned)))
      (u.withSignal { u.notes.signal with handles := plan.held + plan.jobs.length })
    exact .inr ⟨_, _, _, .atOnce hcalls hpoll hends⟩

/-- **An exchange that waits and is settled** goes on, or waits still; then nothing has been
signalled, and somebody still can. -/
theorem Awaits.awaits_or_resumes (fair : d.Fair e.request sel.entry f) (hfresh : e.runs = [])
    (hselect : select Route.mapping e.request d.routes = some sel)
    (haction : sel.entry.action = .later f) (h : e.Awaits d hub sel f before e' hub') :
    (∃ ds p, e.Awaits d hub sel f (before ++ ds) (e'.settle hub').1 (e'.settle hub').2 ∧
      (e'.settle hub').1.signal? 0 = some p ∧ p.value = none ∧ p.handles ≠ 0) ∨
      ∃ ds s mid, e.Resumes d hub sel f (before ++ ds) s mid (e'.settle hub').1
        (e'.settle hub').2 := by
  obtain ⟨leaves, t, run, hstands⟩ := h.stands hfresh hselect haction
  obtain ⟨s, plan, u, hrun, hplan⟩ := hstands.jobs
  have hfair : ∀ job ∈ run.jobs, ∃ a : Act σ Unit, a.Fair true ∧ job = a.inHub := by
    intro job hjob
    obtain ⟨a, ha, rfl⟩ := hplan job hjob
    exact ⟨a, fair.jobs hrun a ha, rfl⟩
  obtain ⟨ds, signal, e'', hub'', works⟩ :
      ∃ ds signal e'' hub'', Works 0 run.jobs run.signal e' hub' ds signal e'' hub'' :=
    exists_works hfair hstands.handles
  cases hpoll : signal.poll with
  | some v =>
    obtain ⟨mid, x, t, hends⟩ := fair.hasDeeds_ending hstands.entered
      (Dispatcher.ofVerdict (v.getD (.error abandoned))) (e''.scene 0 signal hub'')
    exact .inr ⟨ds, _, _, .later h hstands.runs hstands.state works hpoll hends⟩
  | none =>
    obtain ⟨hvalue, hleft⟩ := Promise.poll_eq_none_iff.mp hpoll
    refine .inl ⟨ds, signal, ?_, ?_, hvalue, hleft⟩
    · cases h with
      | intro calls undecided goes =>
        rw [List.append_assoc]
        exact .intro calls undecided (goes.settle hstands.runs works fun _ _ => hpoll)
    · rw [settle_eq hstands.runs works, wake_of_stays fun _ _ => hpoll]
      rfl

/-- **The first signal decides.** The request of an exchange comes to a route whose handler leaves its
result to a signal. Whoever has handles to its completer may signal, make handles and drop them, in
the call of the handler, in what goes on beside it, and later; anybody may write to the response in
between. Then,

* as long as the exchange waits: only the first signal is told that it is the first, and the run
  waits for what is signalled first; the exchange has no outcome yet;
* when it goes on, it ends as if a handler had at once taken the steps in writing that were taken so
  far, had left the notes as they are, and had returned the verdict that was signalled first, or the
  failure that nobody can signal any more if all handles are dropped without a signal. From then on
  no signal is told that it is the first unless it is that one, no writing changes the response, and
  the outcome stays;
* if all treat the completer as such, a call that returns has the exchange wait or go on, and to
  settle an exchange that waits has it go on, unless nothing has been signalled and somebody still
  can. -/
theorem first_signal_decides (hfresh : e.runs = [])
    (hselect : select Route.mapping e.request d.routes = some sel)
    (haction : sel.entry.action = .later f) :
    (∀ before e' hub', e.Awaits d hub sel f before e' hub' →
      Deed.FirstOnly before ∧ e'.promise = e.promise ∧
      ∃ run resume, e'.runs = [run] ∧ run.state = .waiting resume ∧
        run.signal.value = Deed.first? before) ∧
    (∀ before s mid e' hub', e.Resumes d hub sel f before s mid e' hub' →
      (Deed.first? before = none → s.notes.signal.handles = 0) ∧
      e.start (d.withAction sel.index (.redo (Deed.writes before) s.notes.forApp
          ((Deed.first? before).getD (.error abandoned)))) hub =
        ({ e' with runs := e'.runs.map fun run => { run with jobs := [] } }, hub') ∧
      (e'.runs.any Run.isCrashed = false → e'.response.committed) ∧
      ∀ after e'' hub'', e'.Goes hub' after e'' hub'' →
        Deed.FirstOnly (before ++ mid ++ after) ∧
        Deed.first? (before ++ mid ++ after) = Deed.first? before ∧
        e''.promise = e'.promise ∧
        (e'.response.committed → e'.response.Fixed e''.response)) ∧
    (d.Fair e.request sel.entry f →
      (∀ leaves c plan u, Enters e.request d.filters (e.scene 0 .closed hub) leaves c →
        (f e.request).inHub.run
          ((c.withVariables sel.pathVars).withSignal .new) = (some plan, u) →
        (∃ ds, e.Awaits d hub sel f ds (e.start d hub).1 (e.start d hub).2) ∨
          ∃ ds s mid, e.Resumes d hub sel f ds s mid (e.start d hub).1 (e.start d hub).2) ∧
      ∀ before e' hub', e.Awaits d hub sel f before e' hub' →
        (∃ ds p, e.Awaits d hub sel f (before ++ ds) (e'.settle hub').1 (e'.settle hub').2 ∧
          (e'.settle hub').1.signal? 0 = some p ∧ p.value = none ∧ p.handles ≠ 0) ∨
          ∃ ds s mid, e.Resumes d hub sel f (before ++ ds) s mid (e'.settle hub').1
            (e'.settle hub').2) := by
  refine ⟨fun before e' hub' h => ?_, fun before s mid e' hub' h => ?_, fun fair =>
    ⟨fun leaves c plan u => awaits_or_resumes fair,
      fun before e' hub' => Awaits.awaits_or_resumes fair hfresh hselect haction⟩⟩
  · obtain ⟨leaves, t, run, hstands⟩ := h.stands hfresh hselect haction
    exact ⟨hstands.answered.firstOnly, hstands.same.promise, run, _, hstands.runs, hstands.state,
      hstands.answered.eq⟩
  · obtain ⟨leaves, c, v, jobs, x, t, entered, hanswered, hresponse, hbound, decided, does, rfl,
      rfl⟩ := h.closes hfresh hselect haction
    have hvalue : s.notes.signal.value = Deed.first? before := hanswered.eq
    obtain ⟨rfl, hspent⟩ := Promise.poll_eq_some_iff.mp decided
    rw [hvalue] at does hspent
    obtain ⟨run, hruns, hsignal, hcrashed⟩ := runs_ended hfresh jobs x t
    refine ⟨hspent, ?_, fun hany => ?_, fun after e'' hub'' goes => ?_⟩
    · rw [ended_withoutJobs hfresh]
      exact start_redo hfresh hselect entered hresponse hbound does.run
    · rw [hruns, List.any_cons, List.any_nil, Bool.or_false] at hany
      obtain ⟨error, rfl⟩ := hcrashed hany
      rw [response_ended]
      exact committed_of_ending does.run
    · obtain ⟨hmoves, run', hruns', hbecomes⟩ := goes.moves hruns
      have htold := hbecomes.told
      rw [hsignal] at htold
      have hall := (hanswered.append does.told.answered).append htold.answered
      refine ⟨hall.firstOnly, ?_, hmoves.same.promise, fun hcommitted => ?_⟩
      · rw [Deed.first?_append, Deed.first?_append]
        cases hfirst : Deed.first? before with
        | some v => rfl
        | none =>
          have hzero := hspent hfirst
          obtain ⟨hspent', hmid⟩ := does.told.spent hzero
          rw [← hspent'] at hzero
          rw [hmid, (htold.spent hzero).2]
          rfl
      · rw [hmoves.response]
        exact Response.fixed_applyAll _ hcommitted

/-- A handler that leaves its result to two others: one writes half an answer and signals a failure,
the other signals success. -/
def relay : Request → Act Unit (Plan Unit) := fun _ => do
  Act.edit (.setStatus .created)
  return ⟨[do
    Act.edit (.write (Utf8.encode "half"))
    let _ ← Act.signal (.error (.badRequest "no")),
    do let _ ← Act.signal (.ok ())], 0⟩

/-- The route of that handler. -/
def relayRoute : Route Unit := ⟨.of "/", .later relay, none, none⟩

/-- The dispatcher of that route alone. -/
def ofRelay : Dispatcher Unit := ⟨[relayRoute], .empty, [], [defaultErrorHandler false]⟩

theorem fair_ofRelay : ofRelay.Fair fresh.request relayRoute relay where
  handler := fun _ => trivial
  jobs hrun := by
    cases hrun
    intro job hjob
    rcases List.mem_cons.mp hjob with rfl | hjob
    · exact fun _ => ⟨.inl ⟨rfl, .inl ⟨_, fun _ => rfl⟩⟩, fun _ => trivial⟩
    · rw [List.mem_singleton.mp hjob]
      exact ⟨.inl ⟨rfl, .inl ⟨_, fun _ => rfl⟩⟩, fun _ => trivial⟩
  leaves entered := by
    cases entered
    exact nofun
  errorHandlers h hh f := by
    rw [List.mem_singleton.mp hh]
    exact fun _ => trivial
  onError := nofun
  onComplete := nofun

/-- The failure is signalled first: the request ends as if a handler had written the half answer and
failed. -/
theorem relay_fails : ∃ s e' hub', fresh.Resumes ofRelay ⟨(), []⟩ ⟨relayRoute, 0, .empty⟩ relay
      [.write (.setStatus .created), .write (.write (Utf8.encode "half")),
        .signal (.error (.badRequest "no")) true, .signal (.ok ()) false] s
      [.write (ErrorBody.ofFailure (.badRequest "no") "/" false).send, .write .commit] e' hub' ∧
    (fresh.start (ofRelay.withAction 0 (.redo [.setStatus .created, .write (Utf8.encode "half")]
      s.notes.forApp (.error (.badRequest "no")))) ⟨(), []⟩).1 = e' ∧
    e'.promise.value = some ⟨.badRequest, some (.badRequest "no")⟩ ∧
    ((∃ ds, fresh.Awaits ofRelay ⟨(), []⟩ ⟨relayRoute, 0, .empty⟩ relay ds
        (fresh.start ofRelay ⟨(), []⟩).1 (fresh.start ofRelay ⟨(), []⟩).2) ∨
      ∃ ds s mid, fresh.Resumes ofRelay ⟨(), []⟩ ⟨relayRoute, 0, .empty⟩ relay ds s mid
        (fresh.start ofRelay ⟨(), []⟩).1 (fresh.start ofRelay ⟨(), []⟩).2) := by
  have hselect : select Route.mapping fresh.request ofRelay.routes =
      some ⟨relayRoute, 0, .empty⟩ := rfl
  have hcalls : fresh.Calls ofRelay ⟨(), []⟩ ⟨relayRoute, 0, .empty⟩ relay [] _
    [.write (.setStatus .created)] _ _ := .intro (.nil _) (.write (.done _ _))
  have hawaits : fresh.Awaits ofRelay ⟨(), []⟩ ⟨relayRoute, 0, .empty⟩ relay
    [.write (.setStatus .created)] _ _ := .intro hcalls rfl .refl
  have hresumes : fresh.Resumes ofRelay ⟨(), []⟩ ⟨relayRoute, 0, .empty⟩ relay _ _ _ _ _ :=
    .later hawaits rfl rfl
      (.cons (.write (.signal (fun _ => rfl) (Nat.zero_lt_succ _) (.done _ _)))
        (.cons (.signal (fun _ => rfl) (Nat.zero_lt_succ _) (.done _ _)) (.nil _ _ _))) rfl
      (.write (.write (.look (.done _ _))))
  obtain ⟨-, hresumed, hfair⟩ := first_signal_decides rfl hselect rfl
  obtain ⟨-, hsame, -, -⟩ := hresumed _ _ _ _ _ hresumes
  obtain ⟨hbegins, -⟩ := hfair fair_ofRelay
  exact ⟨_, _, _, hresumes, congrArg Prod.fst hsame, rfl, hbegins [] _ _ _ (.nil _) rfl⟩

end Exchange

end HttpDispatch
