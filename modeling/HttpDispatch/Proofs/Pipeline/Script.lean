import HttpDispatch.Proofs.Pipeline.Later

/-!
# Calls in single steps

Several calls may be at work on one request at a time: the way through the dispatcher, a rejection,
the end from outside when the server goes down. Here they are taken apart into steps that nothing
can interrupt: a look at a response, a step in writing it, a look at a promise, its completion. A
`Script` is such a call; what is noted about a request and what a handler signals is not part of
the `World` of the tasks, a script goes on with any answer.

* `Script.ofAct`, `Script.service`, `Script.reject`, `Script.drain`, `Script.bury`: the calls;
* `Script.Step`: one step of a call in a world;
* `World.Later`, `Script.Step.later`: what a world may become;
* `Script.Steps.ofAct`: the steps of an act that nobody interrupts are its run;
* `Script.Steps.service`, `Script.Steps.wake`, `Script.Steps.reject`, `Script.Steps.drain`: calls
  that nobody interrupts do to their task what is done to an exchange.
-/

namespace HttpDispatch

/-- What all who have to do with a request share. -/
structure Task where
  request : Request
  response : Response := {}
  promise : Promise Outcome := .new

/-- The task of a request that nothing has been done for. -/
def Task.of (request : Request) : Task := { request }

/-- The tasks, by their numbers, how many rejections were counted, and the numbers of the tasks
whose promises were completed by somebody who was told to be the first. -/
structure World where
  tasks : List Task
  rejected : Nat
  firsts : List Nat

/-- A handle to a task. -/
structure Handle where
  id : Nat
  request : Request

namespace World

variable (w : World) (id : Nat)

/-- A step in writing a response. -/
def write (t : Task) (op : Response.Op) : World :=
  { w with tasks := w.tasks.set id { t with response := (t.response.apply op).2 } }

/-- A promise is completed, by the first or by a later one. -/
def complete (t : Task) (o : Outcome) : World :=
  { w with
    tasks := w.tasks.set id { t with promise := (t.promise.complete o).2 }
    firsts := if (t.promise.complete o).1 then w.firsts ++ [id] else w.firsts }

/-- A rejection is counted. -/
def count : World := { w with rejected := w.rejected + 1 }

/-- The handle is one to a task. -/
def Has (h : Handle) : Prop := ∃ t, w.tasks[h.id]? = some t ∧ t.request = h.request

/-- The response of a task is committed. -/
def Committed : Prop := ∃ t, w.tasks[id]? = some t ∧ t.response.committed

/-- The promise of a task is completed, and its response is committed. -/
def Ended : Prop := ∃ t, w.tasks[id]? = some t ∧ t.promise.isDone ∧ t.response.committed

end World

/-- A call in single steps. -/
inductive Script (σ : Type) where
  /-- The call has returned. -/
  | returned
  /-- The call has crashed. -/
  | crashed
  /-- Counts a rejection. -/
  | count (next : Script σ)
  /-- Looks at a response. -/
  | look (id : Nat) (next : Response → Script σ)
  /-- Takes a step in writing a response. -/
  | write (id : Nat) (op : Response.Op) (next : Bool → Script σ)
  /-- Notes something; the answer may be anything. -/
  | note (next : Notes (Hub σ) → Script σ)
  /-- Looks whether a promise is completed. -/
  | isDone (id : Nat) (next : Bool → Script σ)
  /-- Completes a promise. -/
  | complete (id : Nat) (o : Outcome) (next : Bool → Script σ)
  /-- Waits for a verdict, which may be any. -/
  | await (next : Verdict → Script σ)

namespace Script

variable {σ α : Type}

/-! ### Calls -/

/-- An act on a task, and what follows on its result. -/
def ofAct (id : Nat) : Act (Hub σ) α → (α → Script σ) → Script σ
  | .done a, k => k a
  | .crash, _ => crashed
  | .look next, k => look id fun r => ofAct id (next r) k
  | .write op next, k => write id op fun b => ofAct id (next b) k
  | .note _ next, k => note fun n => ofAct id (next n) k

/-- Completes the promise of a task with the status that its response has. -/
def finish (id : Nat) (error : Option Failure) (next : Script σ) : Script σ :=
  look id fun r => complete id ⟨r.status, error⟩ fun _ => next

/-- Ends a task when its request has come through the dispatcher, or waits for the verdict. -/
def ofProgress (id : Nat) (p : Progress (Hub σ)) : Script σ :=
  match p.stage with
  | .finished error => finish id error returned
  | .waiting resume => await fun v => ofAct id (resume v) fun error => finish id error returned

/-- Leads a task through a dispatcher. -/
def service (d : Dispatcher σ) (h : Handle) : Script σ :=
  ofAct h.id (d.service h.request) (ofProgress h.id)

/-- Sends an error body and ends the task. -/
def terminate (h : Handle) (f : Failure) (next : Script σ) : Script σ :=
  write h.id (ErrorBody.ofFailure f h.request.path false).send fun _ => finish h.id (some f) next

/-- Rejects a task. -/
def reject (h : Handle) (reason : String) : Script σ :=
  count (terminate h (.tooManyRequests s!"request rejected: {reason}") returned)

/-- Ends the tasks that have not come to their ends because the server goes down. -/
def drain : List Handle → Script σ
  | [] => returned
  | h :: rest => isDone h.id fun b =>
    if b then drain rest else terminate h (.unavailable "server is shutting down") (drain rest)

/-- Ends a task whose handler has crashed. -/
def bury (h : Handle) : Script σ :=
  write h.id (.send Exchange.crash.answer none (Utf8.encode Exchange.crash.message)) fun _ =>
    finish h.id (some Exchange.crash) returned

/-! ### Steps -/

/-- One step of a call. -/
inductive Step : Script σ → World → Script σ → World → Prop where
  | count {next : Script σ} {w : World} : Step (.count next) w next w.count
  | look {id : Nat} {next : Response → Script σ} {w : World} {t : Task}
    (task : w.tasks[id]? = some t) : Step (.look id next) w (next t.response) w
  | write {id : Nat} {op : Response.Op} {next : Bool → Script σ} {w : World} {t : Task}
    (task : w.tasks[id]? = some t) :
    Step (.write id op next) w (next (t.response.apply op).1) (w.write id t op)
  | note {next : Notes (Hub σ) → Script σ} {w : World} (n : Notes (Hub σ)) :
    Step (.note next) w (next n) w
  | isDone {id : Nat} {next : Bool → Script σ} {w : World} {t : Task}
    (task : w.tasks[id]? = some t) : Step (.isDone id next) w (next t.promise.isDone) w
  | complete {id : Nat} {o : Outcome} {next : Bool → Script σ} {w : World} {t : Task}
    (task : w.tasks[id]? = some t) :
    Step (.complete id o next) w (next (t.promise.complete o).1) (w.complete id t o)
  | await {next : Verdict → Script σ} {w : World} (v : Verdict) : Step (.await next) w (next v) w

/-- Steps of one call that nothing comes between. -/
inductive Steps : Script σ → World → Script σ → World → Prop where
  | refl (s : Script σ) (w : World) : Steps s w s w
  | head {s s' s'' : Script σ} {w w' w'' : World} (step : Step s w s' w')
    (rest : Steps s' w' s'' w'') : Steps s w s'' w''

end Script

/-! ### Later worlds -/

/-- What a task may become. -/
structure Task.Later (t t' : Task) : Prop where
  request : t'.request = t.request
  outcome : ∀ {o}, t.promise.value = some o → t'.promise.value = some o
  response : t.response.Evolves t'.response

@[simp] theorem Task.Later.refl (t : Task) : t.Later t := ⟨rfl, fun h => h, .refl _⟩

theorem Task.Later.trans {t t' t'' : Task} (h : t.Later t') (k : t'.Later t'') : t.Later t'' :=
  ⟨k.request.trans h.request, fun ho => k.outcome (h.outcome ho), h.response.trans k.response⟩

theorem Task.Later.isDone {t t' : Task} (h : t.Later t') (hd : t.promise.isDone) :
    t'.promise.isDone := by
  unfold Promise.isDone at hd ⊢
  obtain ⟨o, ho⟩ := Option.isSome_iff_exists.mp hd
  rw [h.outcome ho]
  rfl

theorem Task.later_write (t : Task) (op : Response.Op) :
    t.Later { t with response := (t.response.apply op).2 } :=
  ⟨rfl, fun h => h, Response.evolves_apply ..⟩

theorem Task.later_complete (t : Task) (o : Outcome) :
    t.Later { t with promise := (t.promise.complete o).2 } :=
  ⟨rfl, Promise.value_complete, .refl _⟩

namespace World

/-- What a world may become: a later task for each. -/
structure Later (w w' : World) : Prop where
  tasks : ∀ {id : Nat} {t}, w.tasks[id]? = some t →
    ∃ t', w'.tasks[id]? = some t' ∧ Task.Later t t'

variable {w w' w'' : World} {id : Nat} {t : Task}

@[simp] theorem Later.refl (w : World) : w.Later w := ⟨fun h => ⟨_, h, .refl _⟩⟩

theorem Later.trans (h : w.Later w') (k : w'.Later w'') : w.Later w'' where
  tasks ht := by
    obtain ⟨t', ht', h1⟩ := h.tasks ht
    obtain ⟨t'', ht'', h2⟩ := k.tasks ht'
    exact ⟨t'', ht'', h1.trans h2⟩

theorem Later.committed (k : w.Later w') (h : w.Committed id) : w'.Committed id := by
  obtain ⟨t, ht, hc⟩ := h
  obtain ⟨t', ht', hl⟩ := k.tasks ht
  exact ⟨t', ht', (hl.response.fixed hc).after⟩

theorem Later.ended (k : w.Later w') (h : w.Ended id) : w'.Ended id := by
  obtain ⟨t, ht, hd, hc⟩ := h
  obtain ⟨t', ht', hl⟩ := k.tasks ht
  exact ⟨t', ht', hl.isDone hd, (hl.response.fixed hc).after⟩

theorem task_set (ht : w.tasks[id]? = some t) (t' : Task) : (w.tasks.set id t')[id]? = some t' :=
  List.getElem?_set_self (List.getElem?_eq_some_iff.mp ht).1

theorem task_write (ht : w.tasks[id]? = some t) (op : Response.Op) :
    (w.write id t op).tasks[id]? = some { t with response := (t.response.apply op).2 } :=
  task_set ht _

theorem task_complete (ht : w.tasks[id]? = some t) (o : Outcome) :
    (w.complete id t o).tasks[id]? = some { t with promise := (t.promise.complete o).2 } :=
  task_set ht _

theorem later_set {t' : Task} (ht : w.tasks[id]? = some t) (h : t.Later t') (rejected : Nat)
    (firsts : List Nat) : w.Later ⟨w.tasks.set id t', rejected, firsts⟩ where
  tasks {j u} hu := by
    by_cases hj : id = j
    · subst hj
      rw [ht] at hu
      cases hu
      exact ⟨t', task_set ht t', h⟩
    · exact ⟨u, by rw [List.getElem?_set_ne hj, hu], .refl u⟩

theorem later_write (ht : w.tasks[id]? = some t) (op : Response.Op) :
    w.Later (w.write id t op) :=
  later_set ht (t.later_write op) ..

theorem later_complete (ht : w.tasks[id]? = some t) (o : Outcome) :
    w.Later (w.complete id t o) :=
  later_set ht (t.later_complete o) ..

end World

variable {σ α : Type}

/-- **A step leads to a later world.** -/
theorem Script.Step.later {s s' : Script σ} {w w' : World} (h : Step s w s' w') : w.Later w' := by
  cases h with
  | count => exact ⟨fun ht => ⟨_, ht, .refl _⟩⟩
  | write task => exact World.later_write task _
  | complete task => exact World.later_complete task _
  | _ => exact .refl w

/-! ### Calls that nothing comes between -/

/-- The task that an exchange is. -/
def Exchange.task (e : Exchange σ) : Task := ⟨e.request, e.response, e.promise⟩

namespace Script.Steps

variable {id : Nat} {w : World} {t : Task} {e : Exchange σ}

theorem trans {s s' s'' : Script σ} {w w' w'' : World} (h : Steps s w s' w')
    (k : Steps s' w' s'' w'') : Steps s w s'' w'' := by
  induction h with
  | refl => exact k
  | head step _ ih => exact .head step (ih k)

/-- **An act that nobody interrupts** does what it does when it is run. -/
theorem ofAct {a : Act (Hub σ) α} {k : α → Script σ} {x : α} {n : Notes (Hub σ)}
    (ht : w.tasks[id]? = some t) (hr : (a.run ⟨t.response, n⟩).1 = some x) :
    Steps (Script.ofAct id a k) w (k x) { w with
      tasks := w.tasks.set id { t with response := (a.run ⟨t.response, n⟩).2.response } } := by
  induction a generalizing w t n with
  | done y =>
    cases hr
    have hsame : w.tasks.set id t = w.tasks := by
      obtain ⟨hlt, ht⟩ := List.getElem?_eq_some_iff.mp ht
      rw [← ht, List.set_getElem_self]
    show Steps (k x) w (k x) { w with tasks := w.tasks.set id t }
    rw [hsame]
    exact .refl ..
  | crash => cases hr
  | look next ih => exact .head (.look ht) (ih t.response ht hr)
  | write op next ih =>
    have rest := ih (t.response.apply op).1 (World.task_write ht op) hr
    rw [World.write, List.set_set] at rest
    exact .head (.write ht) rest
  | note change next ih => exact .head (.note n) (ih n ht hr)

theorem finish (ht : w.tasks[id]? = some t) (error : Option Failure) (next : Script σ) :
    Steps (Script.finish id error next) w next (w.complete id t ⟨t.response.status, error⟩) :=
  .head (.look ht) (.head (.complete ht) (.refl ..))

section Perform

variable {a : Act (Hub σ) α} {place : Nat} {signal signal' : Promise Verdict} {hub hub' : Hub σ}
  {x : α} {e' : Exchange σ}

theorem perform (ht : w.tasks[e.id]? = some e.task)
    (hp : e.perform a place signal hub = (some x, signal', e', hub')) (k : α → Script σ) :
    Steps (Script.ofAct e.id a k) w (k x) { w with tasks := w.tasks.set e.id e'.task } := by
  have hresult := congrArg Prod.fst hp
  have he' := congrArg (fun x => x.2.2.1) hp
  dsimp only at he' hresult
  rw [← he']
  exact ofAct ht hresult

theorem perform_finish (ht : w.tasks[e.id]? = some e.task)
    (hp : e.perform a place signal hub = (some x, signal', e', hub')) {k : α → Script σ}
    {error : Option Failure} (hk : k x = Script.finish e.id error .returned) :
    ∃ firsts, Steps (Script.ofAct e.id a k) w .returned
      ⟨w.tasks.set e.id (e'.finish error).task, w.rejected, firsts⟩ := by
  have hact := perform ht hp k
  rw [hk] at hact
  have hall := hact.trans (finish (World.task_set ht _) error .returned)
  rw [World.complete, List.set_set] at hall
  exact ⟨_, hall⟩

end Perform

section Runs

variable {d : Dispatcher σ} {hub : Hub σ} {signal : Promise Verdict}
  {jobs : List (Act (Hub σ) Unit)} {runs : List (Run σ)}
  {resume : Verdict → Act (Hub σ) (Option Failure)}

/-- **The beginning of a run** is the way through the dispatcher, if that comes to its end at
once. -/
theorem service (ht : w.tasks[e.id]? = some e.task)
    (hover : (e.start d hub).1.runs = runs ++ [⟨signal, jobs, .over⟩]) :
    ∃ firsts, Steps (Script.service d ⟨e.id, e.request⟩) w .returned
      ⟨w.tasks.set e.id (e.start d hub).1.task, w.rejected, firsts⟩ := by
  unfold Exchange.start at hover ⊢
  rcases hp : e.perform (d.service e.request) e.runs.length .closed hub with
    ⟨_ | ⟨jobs', error | resume⟩, signal', e', hub'⟩ <;> rw [hp] at hover <;>
    obtain ⟨-, hlast⟩ := List.append_inj' hover rfl <;> cases hlast
  exact perform_finish ht hp rfl

/-- **The beginning of a run that waits** is the way through the dispatcher up to there. -/
theorem service_waits (ht : w.tasks[e.id]? = some e.task)
    (hwaits : (e.start d hub).1.runs = runs ++ [⟨signal, jobs, .waiting resume⟩]) :
    Steps (Script.service d ⟨e.id, e.request⟩) w (Script.ofProgress e.id ⟨jobs, .waiting resume⟩)
      { w with tasks := w.tasks.set e.id (e.start d hub).1.task } := by
  unfold Exchange.start at hwaits ⊢
  rcases hp : e.perform (d.service e.request) e.runs.length .closed hub with
    ⟨_ | ⟨jobs', error | resume'⟩, signal', e', hub'⟩ <;> rw [hp] at hwaits <;>
    obtain ⟨-, hlast⟩ := List.append_inj' hwaits rfl <;> cases hlast
  exact perform ht hp (Script.ofProgress e.id)

/-- **A run goes on** by what is left of the way, if that comes to its end. -/
theorem wake {place : Nat} {run : Run σ} (ht : w.tasks[e.id]? = some e.task)
    (hwaiting : run.state = .waiting resume) (hover : (e.wake place run hub).1.state = .over) :
    ∃ firsts, Steps (Script.ofProgress e.id ⟨run.jobs, .waiting resume⟩) w .returned
      ⟨w.tasks.set e.id (e.wake place run hub).2.1.task, w.rejected, firsts⟩ := by
  unfold Exchange.wake at hover ⊢
  rw [hwaiting] at hover ⊢
  cases hpoll : run.signal.poll with
  | none =>
    rw [hpoll] at hover
    dsimp only at hover
    rw [hwaiting] at hover
    cases hover
  | some v =>
    rw [hpoll] at hover
    dsimp only at hover ⊢
    rcases hp : e.perform (resume (v.getD (.error abandoned))) place run.signal hub with
      ⟨_ | error, signal', e', hub'⟩
    · rw [hp] at hover
      cases hover
    · obtain ⟨firsts, hall⟩ := perform_finish ht hp (k := fun error =>
        Script.finish e.id error .returned) rfl
      exact ⟨firsts, .head (.await _) hall⟩

end Runs

theorem terminate (ht : w.tasks[e.id]? = some e.task) (f : Failure) (next : Script σ) :
    ∃ firsts, Steps (Script.terminate ⟨e.id, e.request⟩ f next) w next
      ⟨w.tasks.set e.id (e.terminate f).task, w.rejected, firsts⟩ := by
  have rest := finish (World.task_write ht (ErrorBody.ofFailure f e.request.path false).send)
    (some f) next
  rw [World.complete, World.write, List.set_set] at rest
  exact ⟨_, .head (.write ht) rest⟩

theorem reject (ht : w.tasks[e.id]? = some e.task) (reason : String) :
    ∃ firsts, Steps (Script.reject (σ := σ) ⟨e.id, e.request⟩ reason) w .returned
      ⟨w.tasks.set e.id (e.reject reason).task, w.rejected + 1, firsts⟩ := by
  have hcount : w.count.tasks[e.id]? = some e.task := ht
  obtain ⟨firsts, hall⟩ := terminate hcount
    (.tooManyRequests s!"request rejected: {reason}") .returned
  exact ⟨firsts, .head .count hall⟩

theorem drain (ht : w.tasks[e.id]? = some e.task) (rest : List Handle) :
    ∃ firsts, Steps (Script.drain (σ := σ) (⟨e.id, e.request⟩ :: rest)) w (Script.drain rest)
      ⟨w.tasks.set e.id e.abandon.task, w.rejected, firsts⟩ := by
  have step : Step (Script.drain (σ := σ) (⟨e.id, e.request⟩ :: rest)) w
      (if e.isDone then Script.drain rest else
        Script.terminate ⟨e.id, e.request⟩ (.unavailable "server is shutting down")
          (Script.drain rest)) w := .isDone ht
  unfold Exchange.abandon
  split at step
  · next hd =>
    obtain ⟨hlt, hget⟩ := List.getElem?_eq_some_iff.mp ht
    rw [if_pos hd, ← hget, List.set_getElem_self]
    exact ⟨w.firsts, .head step (.refl ..)⟩
  · next hd =>
    obtain ⟨firsts, hall⟩ := terminate ht (.unavailable "server is shutting down")
      (Script.drain rest)
    rw [if_neg hd]
    exact ⟨firsts, .head step hall⟩

end Script.Steps

end HttpDispatch
