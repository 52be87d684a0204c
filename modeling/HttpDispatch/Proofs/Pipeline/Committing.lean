import HttpDispatch.Proofs.Pipeline.Later
import HttpDispatch.Proofs.Routing.Selection
import HttpDispatch.Proofs.Work.Leaves

/-!
# The dispatcher commits

Whatever filters, handlers and callbacks do, and whoever else writes to the response meanwhile, a
request that a dispatcher has come to the end with has a committed response.

* `Dispatcher.leaves_service`: the whole way of a request commits its response;
* `Dispatcher.leaves_finished`: it comes to the end at once if no action is signalled later;
* `Exchange.start_of_prompt`: an exchange is then done when its run has begun, or has crashed.
-/

namespace HttpDispatch

variable {σ : Type}

/-! ### Committing -/

/-- The response is committed if the request is at its end; if it waits, it will be in the end. -/
def Progress.Commits (c : Bool) (p : Progress σ) : Prop :=
  match p.stage with
  | .finished _ => c
  | .waiting resume => ∀ v, Act.Leaves (fun c _ => c) false (resume v)

namespace Dispatcher

open Act

variable (d : Dispatcher σ) (r : Request) {c : Bool}

theorem leaves_close (error : Option Failure) :
    Leaves (fun c _ => c) c (d.close r error) := by
  have hcommit : ∀ c, Leaves (fun c _ => c)
      c (Act.edit .commit >>= fun _ => (pure error : Act (Hub σ) (Option Failure))) := fun c =>
    leaves_bind (R := fun c _ => c) (leaves_edit (Bool.or_true c)) fun _ _ hc => leaves_pure hc
  unfold close
  refine leaves_bind (R := fun c x => x.committed → c) (leaves_response ?_) fun c x hx => ?_
  · intro x _ hx
    rw [hx, Bool.or_true]
  · split
    · cases error with
      | none => exact hcommit c
      | some f =>
        exact leaves_after fun c _ => hcommit c
    · next hc => exact leaves_pure (hx (by simpa using hc))

theorem leaves_andThen (p : Progress σ) {f : Option Failure → Act σ (Option Failure)}
    (hf : ∀ c error, Leaves (fun c _ => c) c (f error)) :
    Leaves Progress.Commits c (p.andThen f) := by
  unfold Progress.andThen
  split
  · next error _ => exact leaves_bind (hf c error) fun _ _ hc => leaves_pure hc
  · refine leaves_pure fun v => ?_
    exact leaves_after hf

/-- **The whole way of a request commits its response.** -/
theorem leaves_service : Leaves Progress.Commits c (d.service r) := by
  unfold service
  refine leaves_after fun c p => ?_
  exact leaves_andThen p fun c error => d.leaves_close r error

end Dispatcher

/-! ### Dispatchers that do not wait -/

/-- The action is over when it returns. -/
def Action.isPrompt : Action σ → Bool
  | .later _ => false
  | _ => true

/-- The request is at its end. -/
def Progress.IsFinished (p : Progress σ) : Prop := ∃ error, p.stage = .finished error

namespace Dispatcher

open Act

variable {d : Dispatcher σ} {r : Request} {c : Bool}

theorem leaves_settled {action : Action σ} (h : action.isPrompt) (index : Nat) :
    Leaves (fun _ o => ∃ jobs result, o = .settled jobs result) c (d.act r index action) := by
  cases action with
  | none => exact leaves_pure ⟨_, _, rfl⟩
  | now f => exact leaves_after fun _ _ => ⟨_, _, rfl⟩
  | later f => cases h
  | handler k => exact leaves_after fun _ _ => ⟨_, _, rfl⟩

theorem leaves_finished_process (h : ∀ route ∈ d.routes, route.action.isPrompt) :
    Leaves (fun _ p => p.IsFinished) c (d.process r) := by
  unfold process
  split
  · exact leaves_after fun _ _ => leaves_after fun _ _ => ⟨_, rfl⟩
  · next s hs =>
    refine leaves_after fun _ _ => ?_
    refine leaves_bind (leaves_settled (h _ (mem_of_select hs)) s.index) fun _ o ho => ?_
    obtain ⟨jobs, result, rfl⟩ := ho
    exact leaves_after fun _ _ => ⟨_, rfl⟩

theorem leaves_finished_andThen {p : Progress σ} (hp : p.IsFinished)
    (f : Option Failure → Act σ (Option Failure)) :
    Leaves (fun _ p => p.IsFinished) c (p.andThen f) := by
  obtain ⟨error, hp⟩ := hp
  unfold Progress.andThen
  rw [hp]
  exact leaves_after fun _ _ => ⟨_, rfl⟩

theorem leaves_finished_pass (h : ∀ route ∈ d.routes, route.action.isPrompt) :
    ∀ (filters : List (Filter σ)) {c : Bool},
      Leaves (fun _ p => p.IsFinished) c (d.pass r filters)
  | [], _ => leaves_finished_process h
  | f :: rest, c => by
    refine leaves_after fun c entry => ?_
    cases entry with
    | answer error => exact ⟨_, rfl⟩
    | passOn leave =>
      exact leaves_bind (leaves_finished_pass h rest) fun c p hp => leaves_finished_andThen hp _

/-- **A dispatcher whose actions are all over when they return comes to the end of every request**,
unless it crashes. -/
theorem leaves_finished (h : ∀ route ∈ d.routes, route.action.isPrompt) :
    Leaves (fun _ p => p.IsFinished) c (d.service r) :=
  leaves_bind (leaves_finished_pass h d.filters) fun _ _ hp => leaves_finished_andThen hp _

end Dispatcher

/-! ### Exchanges -/

namespace Exchange

/-- **An exchange is done or has crashed** when its run has begun, if no action waits. -/
theorem start_of_prompt {d : Dispatcher σ} (h : ∀ route ∈ d.routes, route.action.isPrompt)
    (e : Exchange σ) (hub : Hub σ) :
    (e.start d hub).1.isDone ∨ (e.start d hub).1.runs.any Run.isCrashed := by
  have hleaves : Act.Leaves (fun _ p => p.IsFinished) false (d.service e.request) :=
    Dispatcher.leaves_finished h
  unfold start
  split
  · refine .inr ?_
    rw [addRun, List.any_append]
    exact Bool.or_true _
  · next hperform =>
    obtain ⟨-, ⟨error, hstage⟩, -⟩ := hleaves.run (fun h => by cases h) (congrArg Prod.fst hperform)
    cases hstage
  · exact .inl (isDone_finish ..)

theorem settleRun_crashed {run : Run σ} (h : run.isCrashed) (e : Exchange σ) (place : Nat)
    (hub : Hub σ) : (e.settleRun place run hub).1.isCrashed := by
  have hstate : run.state = .crashed := by
    unfold Run.isCrashed at h
    split at h
    · assumption
    · cases h
  unfold settleRun wake
  dsimp only
  rw [hstate]
  rfl

theorem settleRuns_crashed : ∀ {runs : List (Run σ)} (_ : runs.any Run.isCrashed) (place : Nat)
    (e : Exchange σ) (hub : Hub σ), (settleRuns place runs e hub).1.any Run.isCrashed
  | [], h, _, _, _ => by cases h
  | run :: rest, h, place, e, hub => by
    rw [List.any_cons, Bool.or_eq_true] at h
    show ((e.settleRun place run hub).1 :: (settleRuns (place + 1) rest _ _).1).any _
    rw [List.any_cons, Bool.or_eq_true]
    rcases h with h | h
    · exact .inl (settleRun_crashed h e place hub)
    · exact .inr (settleRuns_crashed h ..)

theorem settle_crashed {e : Exchange σ} (h : e.runs.any Run.isCrashed) (hub : Hub σ) :
    (e.settle hub).1.runs.any Run.isCrashed :=
  settleRuns_crashed h 0 e hub

end Exchange

end HttpDispatch
