import HttpDispatch.Pipeline.Service
import HttpDispatch.Proofs.Message.Committed

/-!
# What becomes of an exchange

Whatever is done to an exchange, it stays the exchange of its request, an outcome that is known
stays, and the response evolves by steps. `Exchange.Later` collects this; every operation of
`Exchange` leads to a later exchange, and every operation of `Service` on one exchange leaves the
others alone.

* `Exchange.later_settle`, `Exchange.start_eq_addRun`: going on, and beginning a run;
* `Exchange.later_terminate`, `Exchange.later_bury`: ends from outside;
* `Service.exchanges_on`: the exchanges after an operation on one of them.
-/

namespace HttpDispatch

variable {σ α : Type}

theorem Promise.complete_of_done {p : Promise α} {v w : α} (h : p.value = some w) :
    p.complete v = (false, p) := by
  unfold complete
  rw [h]

theorem Promise.complete_of_new {p : Promise α} {v : α} (h : p.value = none) :
    p.complete v = (true, { p with value := some v }) := by
  unfold complete
  rw [h]

theorem Promise.value_complete {p : Promise α} {v w : α} (h : p.value = some w) :
    (p.complete v).2.value = some w := by
  rw [complete_of_done h]
  exact h

@[simp] theorem Promise.isDone_complete (p : Promise α) (v : α) : (p.complete v).2.isDone := by
  unfold complete
  split
  · next h => rw [isDone, h]; rfl
  · rfl

namespace Exchange

/-- **What an exchange may become**: an exchange of the same request and with as many runs, whose
outcome stays once it is known, and whose response evolves. -/
structure Later (e e' : Exchange σ) : Prop where
  id : e'.id = e.id
  request : e'.request = e.request
  outcome : ∀ {o}, e.promise.value = some o → e'.promise.value = some o
  response : e.response.Evolves e'.response
  runs : e'.runs.length = e.runs.length

variable {e e' e'' : Exchange σ}

@[simp] theorem Later.refl (e : Exchange σ) : e.Later e :=
  ⟨rfl, rfl, fun h => h, .refl _, rfl⟩

theorem Later.trans (h : e.Later e') (k : e'.Later e'') : e.Later e'' where
  id := k.id.trans h.id
  request := k.request.trans h.request
  outcome ho := k.outcome (h.outcome ho)
  response := h.response.trans k.response
  runs := k.runs.trans h.runs

theorem Later.isDone (h : e.Later e') (hd : e.isDone) : e'.isDone := by
  unfold Exchange.isDone Promise.isDone at hd ⊢
  obtain ⟨o, ho⟩ := Option.isSome_iff_exists.mp hd
  rw [h.outcome ho]
  rfl

/-! ### Single operations -/

@[simp] theorem later_perform (e : Exchange σ) (a : Act (Hub σ) α) (place : Nat)
    (signal : Promise Verdict) (hub : Hub σ) :
    e.Later (e.perform a place signal hub).2.2.1 :=
  ⟨rfl, rfl, fun h => h,
    Act.evolves_run a ⟨e.response, ⟨e.id, place⟩, e.attributes, e.pathVars, signal, hub⟩, rfl⟩

@[simp] theorem later_finish (e : Exchange σ) (error : Option Failure) : e.Later (e.finish error) :=
  ⟨rfl, rfl, Promise.value_complete, .refl _, rfl⟩

@[simp] theorem isDone_finish (e : Exchange σ) (error : Option Failure) : (e.finish error).isDone :=
  Promise.isDone_complete ..

@[simp] theorem later_withSignal (e : Exchange σ) (place : Nat)
    (change : Promise Verdict → Promise Verdict) : e.Later (e.withSignal place change) :=
  ⟨rfl, rfl, fun h => h, .refl _, List.length_modify ..⟩

@[simp] theorem later_touch (e : Exchange σ) (a : Act σ α) (hub : Hub σ) :
    e.Later (e.touch a hub).1 :=
  later_perform ..

@[simp] theorem later_apply (e : Exchange σ) (op : Response.Op) :
    e.Later { e with response := (e.response.apply op).2 } :=
  ⟨rfl, rfl, fun h => h, Response.evolves_apply .., rfl⟩

@[simp] theorem later_terminate (e : Exchange σ) (f : Failure) : e.Later (e.terminate f) :=
  (later_apply e (ErrorBody.ofFailure f e.request.path false).send).trans (later_finish ..)

@[simp] theorem later_abandon (e : Exchange σ) : e.Later e.abandon := by
  unfold abandon
  split <;> simp

@[simp] theorem isDone_abandon (e : Exchange σ) : e.abandon.isDone := by
  unfold abandon
  split
  · assumption
  · exact isDone_finish ..

@[simp] theorem later_bury (e : Exchange σ) : e.Later e.bury :=
  (later_apply e (.send crash.answer none (Utf8.encode crash.message))).trans (later_finish ..)

/-! ### Going on -/

@[simp] theorem later_runJobs (place : Nat) : ∀ (jobs : List (Act (Hub σ) Unit))
    (signal : Promise Verdict) (e : Exchange σ) (hub : Hub σ),
    e.Later (runJobs place jobs signal e hub).2.1
  | [], _, e, _ => .refl e
  | job :: rest, signal, e, hub =>
    (later_perform e job place signal hub).trans (later_runJobs place rest ..)

@[simp] theorem later_wake (e : Exchange σ) (place : Nat) (run : Run σ) (hub : Hub σ) :
    e.Later (e.wake place run hub).2.1 := by
  unfold wake
  split
  · next resume v _ _ =>
    have hp := later_perform e (resume (v.getD (.error abandoned))) place run.signal hub
    split
    · next hperform =>
      rw [hperform] at hp
      exact hp.trans (later_finish ..)
    · next hperform =>
      rw [hperform] at hp
      exact hp
  · exact .refl e

@[simp] theorem later_settleRun (e : Exchange σ) (place : Nat) (run : Run σ) (hub : Hub σ) :
    e.Later (e.settleRun place run hub).2.1 :=
  (later_runJobs place run.jobs run.signal e hub).trans (later_wake ..)

theorem later_settleRuns : ∀ (runs : List (Run σ)) (place : Nat) (e : Exchange σ) (hub : Hub σ),
    e.Later (settleRuns place runs e hub).2.1 ∧
      (settleRuns place runs e hub).1.length = runs.length
  | [], _, e, _ => ⟨.refl e, rfl⟩
  | run :: rest, place, e, hub => by
    have h1 := later_settleRun e place run hub
    obtain ⟨h2, hlen⟩ := later_settleRuns rest (place + 1) (e.settleRun place run hub).2.1
      (e.settleRun place run hub).2.2
    exact ⟨h1.trans h2, congrArg (· + 1) hlen⟩

/-- **Going on leads to a later exchange.** -/
@[simp] theorem later_settle (e : Exchange σ) (hub : Hub σ) : e.Later (e.settle hub).1 := by
  obtain ⟨h, hlen⟩ := later_settleRuns e.runs 0 e hub
  exact ⟨h.id, h.request, h.outcome, h.response, hlen⟩

/-- **To begin a run** is to have something done to the exchange and to add the run. -/
theorem start_eq_addRun (e : Exchange σ) (d : Dispatcher σ) (hub : Hub σ) :
    ∃ e' run, (e.start d hub).1 = e'.addRun run ∧ e.Later e' := by
  have hp := later_perform e (d.service e.request) e.runs.length .closed hub
  unfold start
  split
  · next hperform => rw [hperform] at hp; exact ⟨_, _, rfl, hp⟩
  · next hperform => rw [hperform] at hp; exact ⟨_, _, rfl, hp⟩
  · next hperform => rw [hperform] at hp; exact ⟨_, _, rfl, hp.trans (later_finish ..)⟩

end Exchange

namespace Service

variable (s : Service σ)

/-- **An operation on one exchange leaves the others alone.** -/
@[simp] theorem exchanges_on (id : Nat) (change : Exchange σ → Hub σ → Exchange σ × Hub σ)
    (j : Nat) : (s.on id change).exchanges[j]? =
      if id = j then s.exchanges[j]?.map fun e => (change e s.hub).1 else s.exchanges[j]? := by
  unfold on
  split
  · next hid =>
    split
    · next hj => rw [← hj, hid]; rfl
    · rfl
  · next e hid =>
    dsimp only
    split
    · next hj =>
      subst hj
      rw [List.getElem?_set_self (List.getElem?_eq_some_iff.mp hid).1, hid]
      rfl
    · next hj => exact List.getElem?_set_ne hj

variable {s} in
theorem exchanges_on_self {id : Nat} {e : Exchange σ}
    (change : Exchange σ → Hub σ → Exchange σ × Hub σ) (he : s.exchanges[id]? = some e) :
    (s.on id change).exchanges[id]? = some (change e s.hub).1 := by
  rw [exchanges_on, if_pos rfl, he]
  rfl

@[simp] theorem dispatcher_on (id : Nat) (change : Exchange σ → Hub σ → Exchange σ × Hub σ) :
    (s.on id change).dispatcher = s.dispatcher := by
  unfold on
  split <;> rfl

theorem exchanges_submit (request : Request) (j : Nat) :
    (s.submit request).exchanges[j]? =
      if j = s.next then some { id := s.next, request } else s.exchanges[j]? := by
  unfold submit next
  split
  · next hj => rw [hj, List.getElem?_concat_length]
  · next hj =>
    by_cases hlt : j < s.exchanges.length
    · exact List.getElem?_append_left hlt
    · rw [List.getElem?_eq_none (by rw [List.length_append]; show _ + 1 ≤ j; omega),
        List.getElem?_eq_none (by omega)]

end Service

end HttpDispatch
