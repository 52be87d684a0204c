import HttpDispatch.Proofs.Pipeline.Deeds
import HttpDispatch.Proofs.Pipeline.Ending

/-!
# Exchanges that wait for a signal

A handler may leave its result to a signal. Then the exchange waits, while others do their deeds: who
holds a handle to the completer signals, anybody writes to the response. Once something has been
signalled, or nobody can signal any more, the pipeline goes on; deeds may be done after that, too.

* `Exchange.Works`, `Exchange.Goes`: what goes on beside a run, and without the pipeline;
* `Exchange.Calls`, `Exchange.Awaits`, `Exchange.Resumes`: the life of an exchange, from the call of
  the handler to the end of the pipeline;
* `Exchange.Goes.moves`: what becomes of an exchange by deeds alone;
* `Exchange.Awaits.stands`, `Exchange.Resumes.closes`: what an exchange is while it waits, and when
  its pipeline has gone on.
-/

namespace HttpDispatch

variable {σ α : Type}

/-! ### The life of an exchange -/

namespace Exchange

/-- **What goes on beside a run does its deeds**, one after the other, each dropping its handle in
the end. -/
inductive Works (place : Nat) : List (Act (Hub σ) Unit) → Promise Verdict → Exchange σ → Hub σ →
    List Deed → Promise Verdict → Exchange σ → Hub σ → Prop
  | nil (signal : Promise Verdict) (e : Exchange σ) (hub : Hub σ) :
    Works place [] signal e hub [] signal e hub
  | cons {job : Act (Hub σ) Unit} {jobs : List (Act (Hub σ) Unit)} {signal signal' : Promise Verdict}
    {e e' : Exchange σ} {hub hub' : Hub σ} {ds ds' : List Deed} {x : Option Unit}
    {t : Scene (Hub σ)} (does : job.Does (e.scene place signal hub) ds x t)
    (rest : Works place jobs t.notes.signal.drop (e.leaving t) t.notes.app ds' signal' e' hub') :
    Works place (job :: jobs) signal e hub (ds ++ ds') signal' e' hub'

/-- **An exchange goes on without its pipeline**: those who hold handles to the completer signal,
make more of them or drop them; anybody writes to the response and notes something; what goes on
beside the run is done. -/
inductive Goes (e : Exchange σ) (hub : Hub σ) : List Deed → Exchange σ → Hub σ → Prop
  | refl : Goes e hub [] e hub
  | signal {ds : List Deed} {e' : Exchange σ} {hub' : Hub σ} {run : Run σ}
    (before : Goes e hub ds e' hub') (runs : e'.runs = [run])
    (held : run.jobs.length < run.signal.handles) (v : Verdict) :
    Goes e hub (ds ++ [.signal v (run.signal.complete v).1])
      (e'.withSignal 0 fun p => (p.complete v).2) hub'
  | clone {ds : List Deed} {e' : Exchange σ} {hub' : Hub σ} {run : Run σ}
    (before : Goes e hub ds e' hub') (runs : e'.runs = [run])
    (held : run.jobs.length < run.signal.handles) :
    Goes e hub ds (e'.withSignal 0 Promise.clone) hub'
  | drop {ds : List Deed} {e' : Exchange σ} {hub' : Hub σ} {run : Run σ}
    (before : Goes e hub ds e' hub') (runs : e'.runs = [run])
    (held : run.jobs.length < run.signal.handles) :
    Goes e hub ds (e'.withSignal 0 Promise.drop) hub'
  | touch {ds ds' : List Deed} {e' : Exchange σ} {hub' : Hub σ} {a : Act σ Unit} {x : Option Unit}
    {t : Scene (Hub σ)} (before : Goes e hub ds e' hub')
    (does : a.inHub.Does (e'.scene e'.runs.length .closed hub') ds' x t) :
    Goes e hub (ds ++ ds') (e'.touch a hub').1 (e'.touch a hub').2
  | settle {ds ds' : List Deed} {e' e'' : Exchange σ} {hub' hub'' : Hub σ} {run : Run σ}
    {signal : Promise Verdict} (before : Goes e hub ds e' hub') (runs : e'.runs = [run])
    (works : Works 0 run.jobs run.signal e' hub' ds' signal e'' hub'')
    (stays : ∀ resume, run.state = .waiting resume → signal.poll = none) :
    Goes e hub (ds ++ ds') (e'.settle hub').1 (e'.settle hub').2

section Life

variable (e : Exchange σ) (d : Dispatcher σ) (hub : Hub σ) (sel : Selection (Route σ))
  (f : Request → Act σ (Plan σ))

/-- **The handler of a route is called** by a run that begins: the filters that are to be left, the
scene in which it is called, its deeds, its plan, and the scene when it has returned. -/
inductive Calls : List (Leave σ) → Scene (Hub σ) → List Deed → Plan σ → Scene (Hub σ) → Prop
  | intro {leaves : List (Leave σ)} {ds : List Deed} {plan : Plan σ} {t u : Scene (Hub σ)}
    (entered : Enters e.request d.filters (e.scene 0 .closed hub) leaves t)
    (does : (f e.request).inHub.Does
      ((t.withVariables sel.pathVars).withSignal .new) ds (some plan) u) :
    Calls leaves (t.withVariables sel.pathVars) ds plan
      (u.withSignal { u.notes.signal with handles := plan.held + plan.jobs.length })

/-- **The exchange waits for a signal**: the deeds so far. -/
inductive Awaits : List Deed → Exchange σ → Hub σ → Prop
  | intro {leaves : List (Leave σ)} {c u : Scene (Hub σ)} {ds ds' : List Deed} {plan : Plan σ}
    {e' : Exchange σ} {hub' : Hub σ} (calls : e.Calls d hub sel f leaves c ds plan u)
    (undecided : u.notes.signal.poll = none)
    (goes : Goes (e.start d hub).1 (e.start d hub).2 ds' e' hub') : Awaits (ds ++ ds') e' hub'

/-- **The pipeline of an exchange goes on**, at once or when it has waited: the deeds before, the
scene in which it goes on, its own deeds, and the exchange and the shared state then. -/
inductive Resumes : List Deed → Scene (Hub σ) → List Deed → Exchange σ → Hub σ → Prop
  | atOnce {leaves : List (Leave σ)} {c u t : Scene (Hub σ)} {ds mid : List Deed} {plan : Plan σ}
    {v : Option Verdict} {x : Option (Option Failure)}
    (calls : e.Calls d hub sel f leaves c ds plan u) (decided : u.notes.signal.poll = some v)
    (does : (d.ending e.request sel.entry leaves.reverse
      (Dispatcher.ofVerdict (v.getD (.error abandoned)))).Does u mid x t) :
    Resumes ds u mid (e.start d hub).1 (e.start d hub).2
  | later {ds ds' mid : List Deed} {e' e'' : Exchange σ} {hub' hub'' : Hub σ} {run : Run σ}
    {resume : Verdict → Act (Hub σ) (Option Failure)} {signal : Promise Verdict}
    {v : Option Verdict} {t : Scene (Hub σ)} {x : Option (Option Failure)}
    (awaits : e.Awaits d hub sel f ds e' hub') (runs : e'.runs = [run])
    (waiting : run.state = .waiting resume)
    (works : Works 0 run.jobs run.signal e' hub' ds' signal e'' hub'')
    (decided : signal.poll = some v)
    (does : (resume (v.getD (.error abandoned))).Does (e''.scene 0 signal hub'') mid x t) :
    Resumes (ds ++ ds') (e''.scene 0 signal hub'') mid (e'.settle hub').1 (e'.settle hub').2

end Life

/-! ### What goes on without the pipeline -/

/-- An exchange of the same request, with the same outcome if there is one. -/
structure Same (e e' : Exchange σ) : Prop where
  id : e'.id = e.id
  request : e'.request = e.request
  promise : e'.promise = e.promise

/-- **What becomes of an exchange by deeds alone**: they are the steps of its response, and no
handler is bound. -/
structure Moves (e : Exchange σ) (hub : Hub σ) (ds : List Deed) (e' : Exchange σ) (hub' : Hub σ) :
    Prop where
  same : e.Same e'
  response : e'.response = e.response.applyAll (Deed.writes ds)
  bound : hub'.bound = hub.bound

variable {e e' e'' : Exchange σ} {hub hub' hub'' : Hub σ} {ds ds' : List Deed}
  {signal signal' : Promise Verdict} {place : Nat}

@[simp] theorem Same.refl (e : Exchange σ) : e.Same e := ⟨rfl, rfl, rfl⟩

theorem Same.trans (h : e.Same e') (k : e'.Same e'') : e.Same e'' :=
  ⟨k.id.trans h.id, k.request.trans h.request, k.promise.trans h.promise⟩

@[simp] theorem Moves.refl (e : Exchange σ) (hub : Hub σ) : Moves e hub [] e hub :=
  ⟨.refl e, rfl, rfl⟩

theorem Moves.trans (h : Moves e hub ds e' hub') (k : Moves e' hub' ds' e'' hub'') :
    Moves e hub (ds ++ ds') e'' hub'' where
  same := h.same.trans k.same
  response := by simp [k.response, h.response]
  bound := k.bound.trans h.bound

theorem Moves.withSignal (h : Moves e hub ds e' hub') (change : Promise Verdict → Promise Verdict) :
    Moves e hub ds (e'.withSignal 0 change) hub' :=
  ⟨h.same.trans ⟨rfl, rfl, rfl⟩, h.response, h.bound⟩

theorem moves_leaving {a : Act (Hub σ) α} {x : Option α} {t : Scene (Hub σ)}
    (h : a.Does (e.scene place signal hub) ds x t) : Moves e hub ds (e.leaving t) t.notes.app :=
  ⟨⟨rfl, rfl, rfl⟩, h.response, h.bound⟩

theorem Works.runJobs {jobs : List (Act (Hub σ) Unit)}
    (h : Works place jobs signal e hub ds signal' e' hub') :
    runJobs place jobs signal e hub = (signal', e', hub') := by
  induction h with
  | nil => rfl
  | cons does _ ih =>
    rw [Exchange.runJobs, perform_eq does.run]
    exact ih

theorem Works.moves {jobs : List (Act (Hub σ) Unit)}
    (h : Works place jobs signal e hub ds signal' e' hub') : Moves e hub ds e' hub' := by
  induction h with
  | nil => exact .refl _ _
  | cons does _ ih => exact (moves_leaving does).trans ih

theorem Works.told {jobs : List (Act (Hub σ) Unit)}
    (h : Works place jobs signal e hub ds signal' e' hub') : signal.Told ds signal' := by
  induction h with
  | nil => exact .nil _
  | cons does _ ih => exact does.told.append ((Promise.told_drop _).append ih)

/-- **What becomes of a run by deeds alone**: it is in the same state, its promise has been told of
the deeds, and what still goes on beside it has handles, if it had. -/
structure Becomes (run : Run σ) (ds : List Deed) (run' : Run σ) : Prop where
  state : run'.state = run.state
  told : run.signal.Told ds run'.signal
  jobs : ∀ job ∈ run'.jobs, job ∈ run.jobs
  handles : run.jobs.length ≤ run.signal.handles → run'.jobs.length ≤ run'.signal.handles

section Single

variable {run : Run σ}

theorem runs_withSignal (runs : e.runs = [run]) (change : Promise Verdict → Promise Verdict) :
    (e.withSignal 0 change).runs = [{ run with signal := change run.signal }] := by
  rw [withSignal, runs]
  rfl

theorem touch_eq {a : Act σ Unit} {x : Option Unit} {t : Scene (Hub σ)}
    (h : a.inHub.run (e.scene e.runs.length .closed hub) = (x, t)) :
    e.touch a hub = (e.leaving t, t.notes.app) := by
  rw [touch, perform_eq h]

theorem wake_of_stays (stays : ∀ resume, run.state = .waiting resume → run.signal.poll = none) :
    e.wake place run hub = (run, e, hub) := by
  unfold wake
  rcases hstate : run.state with resume | _ | _
  case waiting => rw [stays resume hstate]
  all_goals rfl

theorem settle_eq (runs : e.runs = [run])
    (works : Works 0 run.jobs run.signal e hub ds signal e' hub') :
    e.settle hub = ({ (e'.wake 0 { run with signal, jobs := [] } hub').2.1 with
      runs := [(e'.wake 0 { run with signal, jobs := [] } hub').1] },
      (e'.wake 0 { run with signal, jobs := [] } hub').2.2) := by
  unfold settle
  rw [runs]
  unfold settleRuns settleRun
  rw [works.runJobs]
  rfl

/-- **Who goes on without its pipeline** is still the same run, in the same state. -/
theorem Goes.moves (hruns : e.runs = [run]) (h : Goes e hub ds e' hub') :
    Moves e hub ds e' hub' ∧ ∃ run', e'.runs = [run'] ∧ Becomes run ds run' := by
  induction h with
  | refl => exact ⟨.refl _ _, run, hruns, rfl, .nil _, fun _ h => h, fun h => h⟩
  | @signal _ _ _ run' _ runs held v ih =>
    obtain ⟨hmoves, run'', hruns', hbecomes⟩ := ih
    cases hruns'.symm.trans runs
    refine ⟨hmoves.trans ⟨⟨rfl, rfl, rfl⟩, rfl, rfl⟩, _, runs_withSignal runs _, hbecomes.state,
      hbecomes.told.append (.signal (Nat.zero_lt_of_lt held) (.nil _)), hbecomes.jobs, fun _ => ?_⟩
    exact Nat.le_of_lt (held.trans_eq (Promise.handles_complete run'.signal v).symm)
  | clone _ runs held ih =>
    obtain ⟨hmoves, run', hruns', hbecomes⟩ := ih
    cases hruns'.symm.trans runs
    exact ⟨hmoves.withSignal _, _, runs_withSignal runs _, hbecomes.state,
      hbecomes.told.quietly (.count (Nat.zero_lt_of_lt held) (.nil _)), hbecomes.jobs,
      fun _ => Nat.le_of_lt (held.trans (Nat.lt_succ_self _))⟩
  | drop _ runs held ih =>
    obtain ⟨hmoves, run', hruns', hbecomes⟩ := ih
    cases hruns'.symm.trans runs
    exact ⟨hmoves.withSignal _, _, runs_withSignal runs _, hbecomes.state,
      hbecomes.told.quietly (Promise.told_drop _), hbecomes.jobs, fun _ => Nat.le_pred_of_lt held⟩
  | touch _ does ih =>
    obtain ⟨hmoves, run', hruns', hbecomes⟩ := ih
    rw [touch_eq does.run]
    exact ⟨hmoves.trans (moves_leaving does), run', hruns', hbecomes.state,
      hbecomes.told.append (does.told.of_spent rfl _), hbecomes.jobs, hbecomes.handles⟩
  | settle _ runs works stays ih =>
    obtain ⟨hmoves, run', hruns', hbecomes⟩ := ih
    cases hruns'.symm.trans runs
    rw [settle_eq runs works, wake_of_stays stays]
    have hworked := hmoves.trans works.moves
    exact ⟨⟨hworked.same.trans ⟨rfl, rfl, rfl⟩, hworked.response, hworked.bound⟩, _, rfl,
      hbecomes.state, hbecomes.told.append works.told, nofun, fun _ => Nat.zero_le _⟩

end Single

/-! ### When the pipeline goes on -/

/-- The exchange when its only run has come to an end or has crashed. -/
def ended (e : Exchange σ) (jobs : List (Act (Hub σ) Unit)) (x : Option (Option Failure))
    (t : Scene (Hub σ)) : Exchange σ :=
  match x with
  | some error => ((e.leaving t).finish error).addRun ⟨t.notes.signal, jobs, .over⟩
  | none => (e.leaving t).addRun ⟨t.notes.signal, [], .crashed⟩

variable {d : Dispatcher σ} {sel : Selection (Route σ)} {f : Request → Act σ (Plan σ)}
  {jobs : List (Act (Hub σ) Unit)} {x : Option (Option Failure)} {t u : Scene (Hub σ)}

theorem start_eq_ended (h : (d.service e.request).run (e.scene e.runs.length .closed hub) =
      (x.map fun error => ⟨jobs, .finished error⟩, t)) :
    e.start d hub = (e.ended jobs x t, t.notes.app) := by
  unfold start ended
  rw [perform_eq h]
  cases x <;> rfl

theorem start_eq_waiting {resume : Verdict → Act (Hub σ) (Option Failure)}
    (h : (d.service e.request).run (e.scene e.runs.length .closed hub) =
      (some ⟨jobs, .waiting resume⟩, t)) :
    e.start d hub = ((e.leaving t).addRun ⟨t.notes.signal, jobs, .waiting resume⟩, t.notes.app) := by
  unfold start
  rw [perform_eq h]

/-- What is left of the jobs apart, an exchange ends in one way. -/
theorem ended_withoutJobs (hfresh : e.runs = []) :
    { e.ended jobs x t with
      runs := (e.ended jobs x t).runs.map fun run => { run with jobs := [] } } =
      e.ended [] x t := by
  cases x <;> simp [ended, addRun, finish, leaving, hfresh]

/-- **An exchange that goes on with its pipeline** ends as if it had not waited. -/
theorem settle_eq_ended {run : Run σ} {resume : Verdict → Act (Hub σ) (Option Failure)}
    {v : Option Verdict} (hfresh : e.runs = []) (hsame : e.Same e'') (runs : e'.runs = [run])
    (waiting : run.state = .waiting resume)
    (works : Works 0 run.jobs run.signal e' hub' ds' signal e'' hub'')
    (decided : signal.poll = some v)
    (h : (resume (v.getD (.error abandoned))).run (e''.scene 0 signal hub'') = (x, t)) :
    e'.settle hub' = (e.ended [] x t, t.notes.app) := by
  rw [settle_eq runs works]
  unfold wake
  rw [waiting]
  dsimp only
  rw [decided]
  dsimp only
  rw [perform_eq h]
  cases x <;> simp [ended, addRun, finish, leaving, hsame.id, hsame.request, hsame.promise, hfresh]

/-! ### While the exchange waits -/

section Called

variable {leaves : List (Leave σ)} {c : Scene (Hub σ)} {plan : Plan σ}

theorem Calls.run (h : e.Calls d hub sel f leaves c ds plan u)
    (haction : sel.entry.action = .later f) :
    (d.act e.request sel.index sel.entry.action).run c =
      (some (polled (plan.jobs.map Act.inHub) u.notes.signal), u) := by
  cases h with
  | @intro _ _ t u entered does =>
    rw [haction, Dispatcher.run_act_later, does.run]
    rfl

theorem Calls.told (h : e.Calls d hub sel f leaves c ds plan u) :
    Deed.Answered none ds u.notes.signal.value := by
  cases h with
  | intro _ does => exact does.told.answered

theorem Calls.response (h : e.Calls d hub sel f leaves c ds plan u) :
    u.response = c.response.applyAll (Deed.writes ds) := by
  cases h with
  | intro _ does => exact does.response

theorem Calls.bound (h : e.Calls d hub sel f leaves c ds plan u) :
    u.notes.app.bound = c.notes.app.bound := by
  cases h with
  | intro _ does => exact does.bound

theorem Calls.start_eq (h : e.Calls d hub sel f leaves c ds plan u) (hfresh : e.runs = [])
    (hselect : select Route.mapping e.request d.routes = some sel)
    (haction : sel.entry.action = .later f) (undecided : u.notes.signal.poll = none) :
    e.start d hub = ((e.leaving u).addRun ⟨u.notes.signal, plan.jobs.map Act.inHub,
      .waiting fun v => d.ending e.request sel.entry leaves.reverse (Dispatcher.ofVerdict v)⟩,
      u.notes.app) := by
  have haction' := h.run haction
  unfold polled at haction'
  rw [undecided] at haction'
  cases h with
  | intro entered does =>
    refine start_eq_waiting ?_
    rw [hfresh]
    exact Dispatcher.run_service_of_waiting entered hselect haction'

/-- **What an exchange is while it waits**: its one run would go on with what follows on the result
of the route, the deeds are answered as they should be, and they are the steps of its response. -/
structure Stands (e : Exchange σ) (d : Dispatcher σ) (hub : Hub σ) (sel : Selection (Route σ))
    (f : Request → Act σ (Plan σ)) (ds : List Deed) (e' : Exchange σ) (hub' : Hub σ)
    (leaves : List (Leave σ)) (t : Scene (Hub σ)) (run : Run σ) : Prop where
  entered : Enters e.request d.filters (e.scene 0 .closed hub) leaves t
  same : e.Same e'
  runs : e'.runs = [run]
  handles : run.jobs.length ≤ run.signal.handles
  jobs : ∃ s plan u, (f e.request).inHub.run s = (some plan, u) ∧
    ∀ job ∈ run.jobs, ∃ a ∈ plan.jobs, job = a.inHub
  state : run.state = .waiting fun v =>
    d.ending e.request sel.entry leaves.reverse (Dispatcher.ofVerdict v)
  answered : Deed.Answered none ds run.signal.value
  response : e'.response = (t.withVariables sel.pathVars).response.applyAll (Deed.writes ds)
  bound : hub'.bound = (t.withVariables sel.pathVars).notes.app.bound

theorem Awaits.stands (h : e.Awaits d hub sel f ds e' hub') (hfresh : e.runs = [])
    (hselect : select Route.mapping e.request d.routes = some sel)
    (haction : sel.entry.action = .later f) :
    ∃ leaves t run, e.Stands d hub sel f ds e' hub' leaves t run := by
  cases h with
  | @intro leaves c u ds ds' plan e' hub' calls undecided goes =>
    have hstart := calls.start_eq hfresh hselect haction undecided
    rw [hstart] at goes
    have hruns : ((e.leaving u).addRun ⟨u.notes.signal, plan.jobs.map Act.inHub,
        .waiting fun v => d.ending e.request sel.entry leaves.reverse
          (Dispatcher.ofVerdict v)⟩).runs = [_] := congrArg (· ++ _) hfresh
    obtain ⟨hmoves, run, hrun, hbecomes⟩ := goes.moves hruns
    have hresponse := calls.response
    have hbound := calls.bound
    have hanswered := calls.told.append hbecomes.told.answered
    cases calls with
    | @intro _ _ t u entered does =>
      refine ⟨leaves, t, run, {
        entered, runs := hrun, state := hbecomes.state, answered := hanswered
        same := ⟨hmoves.same.id, hmoves.same.request, hmoves.same.promise⟩
        handles := hbecomes.handles ?handles
        jobs := ⟨_, plan, u, does.run, fun job hjob => ?jobs⟩
        response := ?response
        bound := hmoves.bound.trans hbound }⟩
      case handles =>
        rw [List.length_map]
        exact Nat.le_add_left ..
      case jobs =>
        obtain ⟨a, ha, rfl⟩ := List.mem_map.mp (hbecomes.jobs job hjob)
        exact ⟨a, ha, rfl⟩
      case response =>
        rw [Deed.writes_append, Response.applyAll_append, ← hresponse]
        exact hmoves.response

end Called

/-! ### When the exchange has gone on -/

variable {before mid : List Deed} {s : Scene (Hub σ)}

/-- **How the pipeline of an exchange goes on**: with what has been signalled, if anything has been
or can still be, in a scene that deeds have led to. -/
structure Closes (e : Exchange σ) (d : Dispatcher σ) (hub : Hub σ) (sel : Selection (Route σ))
    (before : List Deed) (s : Scene (Hub σ)) (mid : List Deed) (e' : Exchange σ) (hub' : Hub σ)
    (leaves : List (Leave σ)) (t : Scene (Hub σ)) (v : Option Verdict)
    (jobs : List (Act (Hub σ) Unit)) (x : Option (Option Failure)) (u : Scene (Hub σ)) : Prop where
  entered : Enters e.request d.filters (e.scene 0 .closed hub) leaves t
  answered : Deed.Answered none before s.notes.signal.value
  response : s.response = (t.withVariables sel.pathVars).response.applyAll (Deed.writes before)
  bound : s.notes.app.bound = (t.withVariables sel.pathVars).notes.app.bound
  decided : s.notes.signal.poll = some v
  does : (d.ending e.request sel.entry leaves.reverse
    (Dispatcher.ofVerdict (v.getD (.error abandoned)))).Does s mid x u
  ended : e' = e.ended jobs x u
  hub : hub' = u.notes.app

theorem Resumes.closes (h : e.Resumes d hub sel f before s mid e' hub') (hfresh : e.runs = [])
    (hselect : select Route.mapping e.request d.routes = some sel)
    (haction : sel.entry.action = .later f) :
    ∃ leaves t v jobs x u, e.Closes d hub sel before s mid e' hub' leaves t v jobs x u := by
  cases h with
  | @atOnce leaves c u t ds mid plan v x calls decided does =>
    have hrun := calls.run haction
    unfold polled at hrun
    rw [decided] at hrun
    have hanswered := calls.told
    have hresponse := calls.response
    have hbound := calls.bound
    cases calls with
    | intro entered _ =>
      have hservice := Dispatcher.run_service_of_settled entered hselect hrun
      rw [does.run] at hservice
      have hstart : e.start d hub = _ := start_eq_ended (by rw [hfresh]; exact hservice)
      rw [hstart]
      exact ⟨_, _, v, _, x, t, entered, hanswered, hresponse, hbound, decided, does, rfl, rfl⟩
  | @later ds ds' mid e' e'' hub' hub'' run resume signal v t x awaits runs waiting works decided
      does =>
    obtain ⟨leaves, c, run', hstands⟩ := awaits.stands hfresh hselect haction
    cases hstands.runs.symm.trans runs
    cases hstands.state.symm.trans waiting
    have hmoves := works.moves
    have hsettle := settle_eq_ended hfresh (hstands.same.trans hmoves.same) runs waiting works
      decided does.run
    rw [hsettle]
    refine ⟨leaves, c, v, _, x, t, hstands.entered, hstands.answered.append works.told.answered, ?_,
      hmoves.bound.trans hstands.bound, decided, does, rfl, rfl⟩
    rw [Deed.writes_append, Response.applyAll_append, ← hstands.response]
    exact hmoves.response

theorem runs_ended (hfresh : e.runs = []) (jobs : List (Act (Hub σ) Unit))
    (x : Option (Option Failure)) (t : Scene (Hub σ)) : ∃ run, (e.ended jobs x t).runs = [run] ∧
      run.signal = t.notes.signal ∧ (run.isCrashed = false → ∃ error, x = some error) := by
  cases x with
  | some error => exact ⟨_, congrArg (· ++ _) hfresh, rfl, fun _ => ⟨error, rfl⟩⟩
  | none => exact ⟨_, congrArg (· ++ _) hfresh, rfl, nofun⟩

@[simp] theorem response_ended : (e.ended jobs x t).response = t.response := by
  cases x <;> rfl

theorem committed_of_ending {route : Route σ} {leaves : List (Leave σ)}
    {result : Except Fault Unit} {error : Option Failure} {r : Request}
    (h : (d.ending r route leaves result).run s = (some error, t)) : t.response.committed := by
  have hleaves : Act.Leaves (fun c _ => c) false (d.ending r route leaves result) :=
    Act.leaves_after fun _ _ => Act.leaves_after fun _ error => d.leaves_close r error
  obtain ⟨c, hc, hcommitted⟩ := hleaves.run nofun (congrArg Prod.fst h)
  rw [h] at hcommitted
  exact hcommitted hc

end Exchange

end HttpDispatch
