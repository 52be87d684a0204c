import HttpDispatch.Proofs.Binding.Order
import HttpDispatch.Proofs.Pipeline.Lifecycle

/-!
# Filters around the pipeline

Filters stand around the pipeline like the skins of an onion. They are entered in their order, up to
the first that answers the request itself or, if there is none, to the last; those that have passed
the request on are left in reverse order, each with the failure that the one inside it returns. If
the pipeline was reached, the response is committed by then, and stays as it is; otherwise it is
committed behind the outermost filter.

* `Enters`, `Unwinds`, `Dispatcher.Closes`: the way in, the way out, and the end behind it;
* `Dispatcher.Nests`: how the three and the pipeline make up the way of a request, and
  `Dispatcher.nests_service`: that is how it is;
* `Dispatcher.Processes`, `Dispatcher.processes_process`: the way through the pipeline;
* `Dispatcher.service_insert`: a filter that only passes on changes nothing;
* `Exchange.EndsWith`: the outcome that is recorded;
* `filters_nest_around_pipeline`: all of this for dispatchers as they are built.
-/

namespace HttpDispatch

variable {σ : Type}

/-- What a filter does when it is left: it acts on the failure that is left inside. -/
abbrev Leave (σ : Type) := Option Failure → Act σ (Option Failure)

/-! ### The way in and the way out -/

/-- **Filters are entered** one after the other, and each passes the request on: what they do when
they are left, in the same order. -/
inductive Enters (r : Request) :
    List (Filter σ) → Scene (Hub σ) → List (Leave σ) → Scene (Hub σ) → Prop
  | nil (s : Scene (Hub σ)) : Enters r [] s [] s
  | cons {f : Filter σ} {filters : List (Filter σ)} {leave : Leave σ} {leaves : List (Leave σ)}
    {s t u : Scene (Hub σ)} (entry : (f.enter r).inHub.run s = (some (.passOn leave), t))
    (others : Enters r filters t leaves u) : Enters r (f :: filters) s (leave :: leaves) u

/-- **Filters are left** one after the other, each with the failure that the one before returns: the
failure that the last one returns, unless one of them crashes. -/
inductive Unwinds : List (Leave σ) → Option Failure → Scene (Hub σ) →
    Option (Option Failure) × Scene (Hub σ) → Prop
  | nil (error : Option Failure) (s : Scene (Hub σ)) : Unwinds [] error s (some error, s)
  | cons {leave : Leave σ} {leaves : List (Leave σ)} {error returned : Option Failure}
    {s t : Scene (Hub σ)} {x : Option (Option Failure) × Scene (Hub σ)}
    (run : (leave error).inHub.run s = (some returned, t)) (others : Unwinds leaves returned t x) :
    Unwinds (leave :: leaves) error s x
  | crashed {leave : Leave σ} {leaves : List (Leave σ)} {error : Option Failure}
    {s t : Scene (Hub σ)} (run : (leave error).inHub.run s = (none, t)) :
    Unwinds (leave :: leaves) error s (none, t)

/-- Filters are left behind the pipeline, if that has come to its end: they leave the committed
response as it is. -/
inductive Surfaces (leaves : List (Leave σ)) : Option (Option Failure) × Scene (Hub σ) →
    Option (Option Failure) × Scene (Hub σ) → Prop
  | left {error : Option Failure} {s : Scene (Hub σ)}
    {x : Option (Option Failure) × Scene (Hub σ)} (left : Unwinds leaves error s x)
    (fixed : s.response.Fixed x.2.response) : Surfaces leaves (some error, s) x
  | crashed (s : Scene (Hub σ)) : Surfaces leaves (none, s) (none, s)

namespace Dispatcher

variable (d : Dispatcher σ) (r : Request)

/-- **The end behind the filters**: nothing happens if the response is committed; otherwise error
handlers deal with the failure that the outermost filter returned, if it did, and then the response
is committed. -/
inductive Closes (error : Option Failure) (s : Scene (Hub σ)) :
    Option (Option Failure) × Scene (Hub σ) → Prop
  | already (h : s.response.committed = true) : Closes error s (some error, s)
  | finished {rescued : List Moment} {t : Scene (Hub σ)} (h : s.response.committed = false)
    (rescue : Rescues d.errorHandlers.length error rescued)
    (moments : d.Occurs r none s (rescued ++ [.commit]) t)
    (committed : t.response.committed = true) : Closes error s (some error, t)
  | crashed {f : Failure} {t : Scene (Hub σ)} (h : s.response.committed = false)
    (failed : error = some f) (broken : d.Breaks r none f s t) : Closes error s (none, t)

/-- **The way through the pipeline**: no route is for the request, or one is selected. -/
inductive Processes (s : Scene (Hub σ)) : Option (Progress (Hub σ)) × Scene (Hub σ) → Prop
  | missed {x : Option (Progress (Hub σ)) × Scene (Hub σ)}
    (h : select Route.mapping r d.routes = none) (misses : d.Misses r s x) : Processes s x
  | led {sel : Selection (Route σ)} {x : Option (Progress (Hub σ)) × Scene (Hub σ)}
    (h : select Route.mapping r d.routes = some sel) (passes : d.Passes r True sel s x) :
    Processes s x

/-- **The way of a request through the filters**, from a scene on. Either a filter answers, or
crashes, and neither those behind it nor the pipeline are run; or the pipeline is run once, in the
scene that the last filter leaves. It may come to an end at once or wait for a verdict. -/
inductive Nests (s : Scene (Hub σ)) : Option (Progress (Hub σ)) × Scene (Hub σ) → Prop
  /-- A filter crashes when it is entered. -/
  | refused {before after : List (Filter σ)} {f : Filter σ} {leaves : List (Leave σ)}
    {t u : Scene (Hub σ)} (filters : d.filters = before ++ f :: after)
    (entered : Enters r before s leaves t) (entry : (f.enter r).inHub.run t = (none, u)) :
    Nests s (none, u)
  /-- A filter answers, and one of those before it crashes when it is left. -/
  | lost {before after : List (Filter σ)} {f : Filter σ} {leaves : List (Leave σ)}
    {error : Option Failure} {t u v : Scene (Hub σ)} (filters : d.filters = before ++ f :: after)
    (entered : Enters r before s leaves t)
    (entry : (f.enter r).inHub.run t = (some (.answer error), u))
    (left : Unwinds leaves.reverse error u (none, v)) : Nests s (none, v)
  /-- A filter answers, those before it are left in reverse order, and the request is closed. -/
  | answered {before after : List (Filter σ)} {f : Filter σ} {leaves : List (Leave σ)}
    {error returned : Option Failure} {t u v : Scene (Hub σ)}
    {x : Option (Option Failure) × Scene (Hub σ)} (filters : d.filters = before ++ f :: after)
    (entered : Enters r before s leaves t)
    (entry : (f.enter r).inHub.run t = (some (.answer error), u))
    (left : Unwinds leaves.reverse error u (some returned, v)) (closed : d.Closes r returned v x) :
    Nests s (x.1.map .finished, x.2)
  /-- The pipeline crashes. -/
  | broken {leaves : List (Leave σ)} {t u : Scene (Hub σ)} (entered : Enters r d.filters s leaves t)
    (pipeline : (d.process r).run t = (none, u)) : Nests s (none, u)
  /-- The pipeline comes to its end, and the filters are left in reverse order. -/
  | reached {leaves : List (Leave σ)} {jobs : List (Act (Hub σ) Unit)} {error : Option Failure}
    {t u : Scene (Hub σ)} {x : Option (Option Failure) × Scene (Hub σ)}
    (entered : Enters r d.filters s leaves t)
    (pipeline : (d.process r).run t = (some ⟨jobs, .finished error⟩, u))
    (surface : Surfaces leaves.reverse (some error, u) x) :
    Nests s (x.1.map fun error => ⟨jobs, .finished error⟩, x.2)
  /-- The pipeline waits; when it goes on, in any scene, the same happens at its end. -/
  | waits {leaves : List (Leave σ)} {jobs : List (Act (Hub σ) Unit)}
    {resume outer : Verdict → Act (Hub σ) (Option Failure)} {t u : Scene (Hub σ)}
    (entered : Enters r d.filters s leaves t)
    (pipeline : (d.process r).run t = (some ⟨jobs, .waiting resume⟩, u))
    (surface : ∀ v w, Surfaces leaves.reverse ((resume v).run w) ((outer v).run w)) :
    Nests s (some ⟨jobs, .waiting outer⟩, u)

end Dispatcher

/-! ### Acts on progress -/

theorem Act.run_bind_congr {τ α β : Type} {a b : Act τ α} {s t : Scene τ} (h : a.run s = b.run t)
    (f : α → Act τ β) : (a >>= f).run s = (b >>= f).run t := by
  show (a.bind f).run s = (b.bind f).run t
  rw [Act.run_bind, Act.run_bind, h]

namespace Progress

@[simp] theorem andThen_pure (p : Progress σ) : p.andThen pure = pure p := by
  obtain ⟨jobs, stage⟩ := p
  cases stage with
  | finished error => rfl
  | waiting resume =>
    show (pure ⟨jobs, .waiting fun v => resume v >>= pure⟩ : Act σ (Progress σ)) = _
    simp only [bind_pure]

@[simp] theorem andThen_andThen (p : Progress σ) (f g : Leave σ) :
    (p.andThen f >>= fun p => p.andThen g) = p.andThen fun error => f error >>= g := by
  obtain ⟨jobs, stage⟩ := p
  cases stage with
  | finished error =>
    have hthen : ∀ h : Leave σ, Progress.andThen ⟨jobs, .finished error⟩ h =
        h error >>= fun error => pure ⟨jobs, .finished error⟩ := fun _ => rfl
    rw [hthen, hthen, bind_assoc, bind_assoc]
    rfl
  | waiting resume =>
    show (pure ⟨jobs, .waiting fun v => resume v >>= f >>= g⟩ : Act σ (Progress σ)) = _
    simp only [bind_assoc]
    rfl

end Progress

/-- Leaves filters one after the other. -/
def unwind : List (Leave σ) → Leave (Hub σ)
  | [], error => pure error
  | leave :: leaves, error => (leave error).inHub >>= unwind leaves

@[simp] theorem unwind_concat (leaves : List (Leave σ)) (leave : Leave σ) (error : Option Failure) :
    unwind (leaves ++ [leave]) error = unwind leaves error >>= fun error => (leave error).inHub := by
  induction leaves generalizing error with
  | nil => exact bind_pure _
  | cons first leaves ih =>
    show (first error).inHub >>= unwind (leaves ++ [leave]) =
      (first error).inHub >>= unwind leaves >>= _
    rw [bind_assoc, funext ih]

theorem unwinds_unwind (leaves : List (Leave σ)) (error : Option Failure) (s : Scene (Hub σ)) :
    Unwinds leaves error s ((unwind leaves error).run s) := by
  induction leaves generalizing error s with
  | nil => exact .nil error s
  | cons leave leaves ih =>
    unfold unwind
    rcases hrun : (leave error).inHub.run s with ⟨returned, t⟩
    cases returned with
    | none =>
      rw [Act.run_bind_of_none hrun]
      exact .crashed hrun
    | some returned =>
      rw [Act.run_bind_of_some hrun]
      exact .cons hrun (ih returned t)

namespace Dispatcher

variable {d : Dispatcher σ} {r : Request} {s t u : Scene (Hub σ)} {before after : List (Filter σ)}
  {leaves : List (Leave σ)}

/-! ### From the filters on -/

/-- Where filters have passed a request on, they are left when those behind them have come to an
end. -/
theorem run_pass_of_enters (h : Enters r before s leaves t) (after : List (Filter σ)) :
    (d.pass r (before ++ after)).run s =
      (d.pass r after >>= fun p => p.andThen (unwind leaves.reverse)).run t := by
  induction h with
  | nil s =>
    have hpure : (fun p : Progress (Hub σ) => p.andThen (unwind [])) = pure :=
      funext Progress.andThen_pure
    rw [List.reverse_nil, hpure, bind_pure]
    rfl
  | @cons f filters leave leaves s t u entry _ ih =>
    have hpass : (d.pass r (f :: (filters ++ after))).run s = (d.pass r (filters ++ after) >>= fun p =>
        p.andThen fun error => (leave error).inHub).run t := Act.run_bind_of_some entry
    rw [List.cons_append, hpass]
    refine (Act.run_bind_congr ih _).trans ?_
    rw [bind_assoc, List.reverse_cons]
    simp only [Progress.andThen_andThen, ← unwind_concat]

theorem run_service_of_enters (hfilters : d.filters = before ++ after)
    (h : Enters r before s leaves t) : (d.service r).run s = (d.pass r after >>= fun p =>
      p.andThen fun error => unwind leaves.reverse error >>= d.close r).run t := by
  unfold service
  rw [hfilters]
  refine (Act.run_bind_congr (run_pass_of_enters h after) _).trans ?_
  rw [bind_assoc]
  simp only [Progress.andThen_andThen]

theorem enters_or_not (r : Request) : ∀ (filters : List (Filter σ)) (s : Scene (Hub σ)),
    (∃ leaves t, Enters r filters s leaves t) ∨
    ∃ before f after leaves t entry u, filters = before ++ f :: after ∧
      Enters r before s leaves t ∧ (f.enter r).inHub.run t = (entry, u) ∧
      ∀ leave, entry ≠ some (.passOn leave)
  | [], s => .inl ⟨[], s, .nil s⟩
  | f :: filters, s => by
    rcases hrun : (f.enter r).inHub.run s with ⟨entry, t⟩
    by_cases hpass : ∃ leave, entry = some (.passOn leave)
    · obtain ⟨leave, rfl⟩ := hpass
      rcases enters_or_not r filters t with
        ⟨leaves, u, h⟩ | ⟨before, g, after, leaves, u, entry, v, rfl, h, hentry, hno⟩
      · exact .inl ⟨leave :: leaves, u, .cons hrun h⟩
      · exact .inr ⟨f :: before, g, after, leave :: leaves, u, entry, v, rfl, .cons hrun h, hentry,
          hno⟩
    · exact .inr ⟨[], f, filters, [], s, entry, t, rfl, .nil s, hrun, fun leave h =>
        hpass ⟨leave, h⟩⟩

/-! ### The pipeline and the end -/

theorem processes_process (d : Dispatcher σ) (r : Request) (s : Scene (Hub σ)) :
    d.Processes r s ((d.process r).run s) := by
  cases h : select Route.mapping r d.routes with
  | none => exact .missed h (misses_process h s)
  | some sel => exact .led h (passes_process h s)

theorem Processes.committed {jobs : List (Act (Hub σ) Unit)} {error : Option Failure}
    (h : d.Processes r s (some ⟨jobs, .finished error⟩, t)) : t.response.committed := by
  generalize hx : (some (Progress.mk jobs (.finished error)), t) = x at h
  cases h with
  | missed _ misses =>
    cases misses with
    | finished _ _ committed =>
      obtain ⟨-, rfl⟩ := Prod.mk.inj hx
      exact committed
    | crashed => cases (Prod.mk.inj hx).1
  | led _ passes =>
    cases passes with
    | crashed => cases (Prod.mk.inj hx).1
    | @settled _ _ _ _ last _ ends =>
      obtain ⟨hlast, rfl⟩ := Prod.mk.inj hx
      cases last with
      | none => cases hlast
      | some last => exact ends.committed
    | waiting => cases (Prod.mk.inj hx).1

theorem Processes.committed_of_waiting {jobs : List (Act (Hub σ) Unit)}
    {resume : Verdict → Act (Hub σ) (Option Failure)}
    (h : d.Processes r s (some ⟨jobs, .waiting resume⟩, t)) {v : Verdict} {error : Option Failure}
    {w : Scene (Hub σ)} (hrun : (resume v).run w = (some error, u)) : u.response.committed := by
  generalize hx : (some (Progress.mk jobs (.waiting resume)), t) = x at h
  cases h with
  | missed _ misses => cases misses <;> cases (Prod.mk.inj hx).1
  | led _ passes =>
    cases passes with
    | crashed => cases (Prod.mk.inj hx).1
    | @settled _ _ _ _ last _ ends =>
      obtain ⟨hlast, -⟩ := Prod.mk.inj hx
      cases last <;> cases hlast
    | waiting _ ends =>
      cases (Prod.mk.inj hx).1
      have hends := ends v w
      rw [hrun] at hends
      exact hends.committed

theorem closes_close (d : Dispatcher σ) (r : Request) (error : Option Failure)
    (s : Scene (Hub σ)) : d.Closes r error s ((d.close r error).run s) := by
  cases hcommitted : s.response.committed with
  | true =>
    rw [run_close hcommitted]
    exact .already hcommitted
  | false =>
    cases error with
    | none =>
      have hclose : (d.close r none).run s = (Act.edit .commit >>= fun _ => pure none).run s := by
        show (if !s.response.committed then _ else _ : Act (Hub σ) (Option Failure)).run s = _
        rw [hcommitted]
        rfl
      rw [hclose]
      exact .finished hcommitted .none (.single .commit) rfl
    | some f =>
      have hclose : (d.close r (some f)).run s =
          (d.handleFailure r f >>= fun _ => Act.edit .commit >>= fun _ => pure (some f)).run s := by
        show (if !s.response.committed then _ else _ : Act (Hub σ) (Option Failure)).run s = _
        rw [hcommitted]
        rfl
      rw [hclose]
      rcases d.run_handleFailure (r := r) none f s with
        ⟨rescued, t, hrun, hrescues, hoccurs⟩ | ⟨t, hrun, hbreaks⟩
      · rw [Act.run_bind_of_some hrun]
        exact .finished hcommitted hrescues (hoccurs.append (.single .commit)) rfl
      · rw [Act.run_bind_of_none hrun]
        exact .crashed hcommitted rfl hbreaks

theorem surfaces_run (h : s.response.committed) (leaves : List (Leave σ)) (error : Option Failure) :
    Surfaces leaves (some error, s) ((unwind leaves error >>= d.close r).run s) := by
  have hunwinds := unwinds_unwind leaves error s
  rcases hrun : (unwind leaves error).run s with ⟨returned, t⟩
  rw [hrun] at hunwinds
  have hfixed := (Act.evolves_of_run hrun).fixed h
  cases returned with
  | none =>
    rw [Act.run_bind_of_none hrun]
    exact .left hunwinds hfixed
  | some returned =>
    rw [Act.run_bind_of_some hrun, run_close hfixed.after]
    exact .left hunwinds hfixed

/-! ### The whole way -/

theorem run_andThen_finished {jobs : List (Act (Hub σ) Unit)} {error : Option Failure}
    (f : Leave (Hub σ)) : (Progress.andThen ⟨jobs, .finished error⟩ f).run s =
      (((f error).run s).1.map fun error => ⟨jobs, .finished error⟩, ((f error).run s).2) := by
  show (f error >>= _).run s = _
  rcases hrun : (f error).run s with ⟨returned, t⟩
  cases returned with
  | none => exact Act.run_bind_of_none hrun
  | some returned => exact Act.run_bind_of_some hrun

/-- **Filters nest around the pipeline.** -/
theorem nests_service (d : Dispatcher σ) (r : Request) (s : Scene (Hub σ)) :
    d.Nests r s ((d.service r).run s) := by
  rcases enters_or_not r d.filters s with
    ⟨leaves, t, entered⟩ | ⟨before, f, after, leaves, t, entry, u, hfilters, entered, hentry, hno⟩
  · -- the pipeline is reached
    rw [run_service_of_enters (List.append_nil _).symm entered]
    have hprocesses := processes_process d r t
    rcases hrun : (d.process r).run t with ⟨p, u⟩
    rw [hrun] at hprocesses
    match p, hrun, hprocesses with
    | none, hrun, _ =>
      rw [pass, Act.run_bind_of_none hrun]
      exact .broken entered hrun
    | some ⟨jobs, .finished error⟩, hrun, hprocesses =>
      rw [pass, Act.run_bind_of_some hrun, run_andThen_finished]
      exact .reached entered hrun (surfaces_run hprocesses.committed _ error)
    | some ⟨jobs, .waiting resume⟩, hrun, hprocesses =>
      rw [pass, Act.run_bind_of_some hrun]
      refine .waits entered hrun fun v w => ?_
      rcases hresume : (resume v).run w with ⟨error, w'⟩
      cases error with
      | none =>
        rw [Act.run_bind_of_none hresume]
        exact .crashed w'
      | some error =>
        rw [Act.run_bind_of_some hresume]
        exact surfaces_run (hprocesses.committed_of_waiting hresume) _ error
  · -- some filter does not pass the request on
    rw [run_service_of_enters hfilters entered]
    match entry, hentry with
    | none, hentry =>
      rw [pass, Act.run_bind_of_none (Act.run_bind_of_none hentry)]
      exact .refused hfilters entered hentry
    | some (.passOn leave), _ => exact absurd rfl (hno leave)
    | some (.answer error), hentry =>
      have hpass : (d.pass r (f :: after)).run t = (some (.finished error), u) :=
        Act.run_bind_of_some hentry
      rw [Act.run_bind_of_some hpass, Progress.finished, run_andThen_finished]
      have hunwinds := unwinds_unwind leaves.reverse error u
      rcases hrun : (unwind leaves.reverse error).run u with ⟨returned, v⟩
      rw [hrun] at hunwinds
      cases returned with
      | none =>
        rw [Act.run_bind_of_none hrun]
        exact .lost hfilters entered hentry hunwinds
      | some returned =>
        rw [Act.run_bind_of_some hrun]
        exact .answered hfilters entered hentry hunwinds (closes_close d r returned v)

/-! ### Filters that only pass on -/

theorem pass_insert {f : Filter σ} (h : f.enter r = pure (.passOn pure)) (d : Dispatcher σ)
    (before after : List (Filter σ)) :
    d.pass r (before ++ f :: after) = d.pass r (before ++ after) := by
  induction before with
  | nil =>
    have hpass : d.pass r (f :: after) = d.pass r after >>= fun p => p.andThen pure := by
      show (f.enter r).inHub >>= _ = _
      rw [h]
      rfl
    rw [List.nil_append, List.nil_append, hpass, funext Progress.andThen_pure, bind_pure]
  | cons g before ih =>
    rw [List.cons_append, List.cons_append, pass, pass, ih]

theorem pass_withFilters (d : Dispatcher σ) (r : Request) (filters others : List (Filter σ)) :
    { d with filters := others }.pass r filters = d.pass r filters := by
  induction filters with
  | nil => rfl
  | cons f filters ih => rw [pass, pass, ih]

/-- **A filter that only passes on changes nothing**, wherever it stands. -/
theorem service_insert {f : Filter σ} (h : f.enter r = pure (.passOn pure)) (d : Dispatcher σ)
    (before after : List (Filter σ)) :
    { d with filters := before ++ f :: after }.service r =
      { d with filters := before ++ after }.service r := by
  have hservice : ∀ filters : List (Filter σ), { d with filters }.service r =
      d.pass r filters >>= fun p => p.andThen (d.close r) := by
    intro filters
    rw [← pass_withFilters d r filters filters]
    rfl
  rw [hservice, hservice, pass_insert h]

end Dispatcher

/-! ### Outcomes -/

namespace Exchange

variable {α : Type} {e : Exchange σ} {place : Nat} {signal : Promise Verdict} {hub : Hub σ}
  {error : Option Failure} {t : Scene (Hub σ)}

/-- What a run at a place finds. -/
def scene (e : Exchange σ) (place : Nat) (signal : Promise Verdict) (hub : Hub σ) : Scene (Hub σ) :=
  ⟨e.response, ⟨⟨e.id, place⟩, e.attributes, e.pathVars, signal, hub⟩⟩

/-- The exchange as a run leaves it. -/
def leaving (e : Exchange σ) (t : Scene (Hub σ)) : Exchange σ :=
  { e with response := t.response, attributes := t.notes.attributes, pathVars := t.notes.pathVars }

theorem perform_eq {a : Act (Hub σ) α} {x : Option α}
    (h : a.run (e.scene place signal hub) = (x, t)) :
    e.perform a place signal hub = (x, t.notes.signal, e.leaving t, t.notes.app) :=
  congrArg (fun y : Option α × Scene (Hub σ) =>
    (y.1, y.2.notes.signal, e.leaving y.2, y.2.notes.app)) h

/-- The exchange has this response, and has ended with its status and the failure. -/
structure EndsWith (e : Exchange σ) (error : Option Failure) (r : Response) : Prop where
  response : e.response = r
  outcome : e.promise.value = some ⟨r.status, error⟩

theorem endsWith_finish (h : e.isDone = false) (error : Option Failure) :
    (e.finish error).EndsWith error e.response := by
  have hnone : e.promise.value = none :=
    Option.not_isSome_iff_eq_none.mp fun hsome => Bool.false_ne_true (h.symm.trans hsome)
  refine ⟨rfl, ?_⟩
  rw [finish, Promise.complete_of_new hnone]

theorem endsWith_start {d : Dispatcher σ} {jobs : List (Act (Hub σ) Unit)} (h : e.isDone = false)
    (hrun : (d.service e.request).run (e.scene e.runs.length .closed hub) =
      (some ⟨jobs, .finished error⟩, t)) : (e.start d hub).1.EndsWith error t.response := by
  obtain ⟨hresponse, houtcome⟩ := endsWith_finish (e := e.leaving t) h error
  unfold start
  rw [perform_eq hrun]
  exact ⟨hresponse, houtcome⟩

theorem endsWith_wake {run : Run σ} {resume : Verdict → Act (Hub σ) (Option Failure)}
    {v : Option Verdict} (h : e.isDone = false) (hstate : run.state = .waiting resume)
    (hpoll : run.signal.poll = some v)
    (hrun : (resume (v.getD (.error abandoned))).run (e.scene place run.signal hub) =
      (some error, t)) : (e.wake place run hub).2.1.EndsWith error t.response := by
  have hends := endsWith_finish (e := e.leaving t) h error
  unfold wake
  rw [hstate, hpoll]
  dsimp only
  rw [perform_eq hrun]
  exact hends

theorem start_congr {d d' : Dispatcher σ} (h : d.service e.request = d'.service e.request)
    (hub : Hub σ) : e.start d hub = e.start d' hub := by
  unfold start
  rw [h]

end Exchange

/-! ### Dispatchers as they are built -/

/-- What a dispatcher is built from, in the order of registration. -/
structure Parts (σ : Type) where
  wiring : Wiring σ
  filters : List (Filter σ)
  errorHandlers : List (ErrorHandler σ)
  withCauses : Bool
  routes : List (Route σ)

namespace Parts

/-- The dispatcher that is built. -/
def dispatcher (p : Parts σ) : Dispatcher σ :=
  p.routes.foldl Dispatcher.addRoute
    (.of p.wiring p.filters p.errorHandlers p.withCauses)

theorem foldl_addRoute (routes : List (Route σ)) (d : Dispatcher σ) :
    routes.foldl Dispatcher.addRoute d = { d with routes := d.routes ++ routes } := by
  induction routes generalizing d with
  | nil => rw [List.append_nil]; rfl
  | cons route routes ih => rw [List.foldl_cons, ih, Dispatcher.addRoute, List.append_assoc]; rfl

theorem dispatcher_eq (p : Parts σ) : p.dispatcher =
    ⟨p.routes, p.wiring, byOrder Filter.order p.filters,
      byOrder ErrorHandler.order (p.errorHandlers ++ [defaultErrorHandler p.withCauses])⟩ :=
  foldl_addRoute ..

theorem service_insert (p : Parts σ) {f : Filter σ} {r : Request}
    (h : f.enter r = pure (.passOn pure)) (before after : List (Filter σ)) :
    { p with filters := before ++ f :: after }.dispatcher.service r =
      { p with filters := before ++ after }.dispatcher.service r := by
  obtain ⟨front, back, hwith, hwithout⟩ := exists_byOrder_insert Filter.order before f after
  rw [dispatcher_eq, dispatcher_eq, hwith, hwithout]
  exact Dispatcher.service_insert h ⟨p.routes, p.wiring, [], _⟩ front back

end Parts

/-- **Filters nest around the pipeline**, whatever a dispatcher is built from and for every request:

* filters are entered by ascending order, equal orders as they were registered;
* from every scene on, the request goes its way as `Dispatcher.Nests` says: up to the first filter
  that answers, or through the pipeline once, and out in reverse order, with one end behind it if
  the response is not committed yet;
* in the pipeline, error handlers are asked at most once, and the response is committed behind them;
* an exchange ends with the failure that is left, at once or when it has waited;
* one more filter that only passes on, wherever it is registered, makes no difference to the way of
  the request, nor to its exchange. -/
theorem filters_nest_around_pipeline (p : Parts σ) (r : Request) :
    IsOrdered Filter.order p.filters p.dispatcher.filters ∧
    (∀ s, p.dispatcher.Nests r s ((p.dispatcher.service r).run s)) ∧
    (∀ s, p.dispatcher.Processes r s ((p.dispatcher.process r).run s)) ∧
    (∀ (e : Exchange σ) (hub : Hub σ) (error : Option Failure) (t : Scene (Hub σ)),
      e.isDone = false →
      (∀ jobs, (p.dispatcher.service e.request).run (e.scene e.runs.length .closed hub) =
          (some ⟨jobs, .finished error⟩, t) →
        (e.start p.dispatcher hub).1.EndsWith error t.response) ∧
      ∀ place run resume v, run.state = .waiting resume → run.signal.poll = some v →
        (resume (v.getD (.error abandoned))).run (e.scene place run.signal hub) = (some error, t) →
        (e.wake place run hub).2.1.EndsWith error t.response) ∧
    ∀ before after f, p.filters = before ++ after → f.enter r = pure (.passOn pure) →
      { p with filters := before ++ f :: after }.dispatcher.service r = p.dispatcher.service r ∧
      ∀ (e : Exchange σ) (hub : Hub σ), e.request = r →
        e.start { p with filters := before ++ f :: after }.dispatcher hub =
          e.start p.dispatcher hub := by
  refine ⟨?_, p.dispatcher.nests_service r, p.dispatcher.processes_process r,
    fun e hub error t h => ⟨fun jobs => Exchange.endsWith_start h, fun place run resume v =>
      Exchange.endsWith_wake h⟩, fun before after f hfilters hf => ?_⟩
  · rw [Parts.dispatcher_eq]
    exact isOrdered_byOrder Filter.order p.filters
  · have hservice := p.service_insert hf before after
    rw [← hfilters] at hservice
    refine ⟨hservice, fun e hub hrequest => Exchange.start_congr ?_ hub⟩
    rw [hrequest]
    exact hservice

/-- A filter that writes a status when it is left, and returns a failure of its own. -/
def meddler (order : Int) (message : String) : Filter Unit where
  order := order
  enter _ := return .passOn fun _ => do
    Act.edit (.setStatus .notFound)
    return some (.internal message)

/-- Two such filters around a route that answers nothing. -/
def meddlers : Parts Unit :=
  ⟨.empty, [meddler 0 "outer", meddler 1 "inner"], [], false, [⟨.of "/", .none, none, none⟩]⟩

/-- An exchange that no run has begun for. -/
def fresh : Exchange Unit := { id := 0, request := Dispatcher.front }

theorem meddlers_are_late : (fresh.start meddlers.dispatcher ⟨(), []⟩).1.EndsWith
    (some (.internal "outer")) { committed := true } := by
  have hdispatcher : meddlers.dispatcher =
      ⟨meddlers.routes, .empty, meddlers.filters, [defaultErrorHandler false]⟩ := by
    rw [Parts.dispatcher_eq, byOrder_of_pairwise (by decide), byOrder_of_pairwise (by decide)]
    rfl
  have hrun : ∃ n, (meddlers.dispatcher.service fresh.request).run
      (fresh.scene fresh.runs.length .closed ⟨(), []⟩) =
        (some ⟨[], .finished (some (.internal "outer"))⟩, ⟨{ committed := true }, n⟩) := by
    rw [hdispatcher]
    exact ⟨_, rfl⟩
  obtain ⟨n, hrun⟩ := hrun
  obtain ⟨-, -, -, houtcome, -⟩ := filters_nest_around_pipeline meddlers Dispatcher.front
  exact (houtcome fresh _ _ _ rfl).1 [] hrun

end HttpDispatch
