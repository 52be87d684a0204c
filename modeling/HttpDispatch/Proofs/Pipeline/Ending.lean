import HttpDispatch.Proofs.Pipeline.Bound

/-!
# What a client is told about a failure

Whoever has written to a response before a failure ends the request, the default error handler
writes over it: status, content type and body tell about the failure and about nothing else. Only a
response that is committed by then stays as it is, and the failure goes on without a word.

* `Dispatcher.ending`, `Dispatcher.run_service_of_settled`, `Dispatcher.run_service_of_waiting`: the
  rest of the way of a request whose action has a result;
* `Dispatcher.ComesTo`: the failure that is left in a run, before error handlers are asked;
* `Response.Tells`: what the response says about a failure;
* `Dispatcher.ComesTo.fixed`, `Dispatcher.ComesTo.unwinds`: what becomes of the response and of the
  failure;
* `Parts.error_response_is_independent`: responses to failures do not depend on what was written.
-/

namespace HttpDispatch

variable {σ : Type}

/-! ### What a response tells -/

/-- What a client is told about a failure, as a JSON value; about causes only if an error was raised
that has any, and if the application tells them. -/
def Failure.document (f : Failure) (path : String) (withCauses : Bool) : Json.Value :=
  .object ([("status", .ofNat f.answer.code), ("error", .text f.answer.reason),
      ("message", .text f.message), ("path", .text path)] ++
    match f, withCauses with
    | .raised (.chained _ (cause :: others)), true =>
      [("causes", .list ((cause :: others).map .text))]
    | _, _ => [])

/-- **A response tells about a failure**: it is sent with the status of the failure, says once what
its content is, and its body is the document about the failure. -/
structure Response.Tells (response : Response) (f : Failure) (path : String) (withCauses : Bool) :
    Prop where
  committed : response.committed = true
  status : response.status = f.answer
  contentType : response.fields.getAll "Content-Type" = ["application/json"]
  body : response.body = Utf8.encode (f.document path withCauses).render

theorem ErrorBody.value_ofFailure (f : Failure) (path : String) (withCauses : Bool) :
    (ofFailure f path withCauses).value = f.document path withCauses := by
  cases f with
  | raised error =>
    cases error with
    | plain => cases withCauses <;> rfl
    | chained _ causes => cases withCauses <;> cases causes <;> rfl
  | _ => cases withCauses <;> rfl

theorem Response.tells_send {response : Response} (h : response.committed = false) (f : Failure)
    (path : String) (withCauses : Bool) :
    (response.apply (ErrorBody.ofFailure f path withCauses).send).2.Tells f path withCauses := by
  have hsend : (response.apply (ErrorBody.ofFailure f path withCauses).send).2 =
      { response with
        status := f.answer, fields := response.fields.set "Content-Type" MediaType.json.render,
        body := (ErrorBody.ofFailure f path withCauses).encode, committed := true } := by
    show (response.send ..).2 = _
    rw [send, h]
    rfl
  rw [hsend]
  have hjson : MediaType.json.render = "application/json" := by decide
  refine ⟨rfl, rfl, ?_, ?_⟩
  · rw [hjson]
    exact Fields.getAll_set ..
  · rw [ErrorBody.encode, ErrorBody.value_ofFailure]

theorem Response.Tells.of_fixed {response later : Response} {f : Failure} {path : String}
    {withCauses : Bool} (h : response.Tells f path withCauses) (hfixed : response.Fixed later) :
    later.Tells f path withCauses := by
  have hcontent : (later.status, later.fields, later.body) =
      (response.status, response.fields, response.body) := hfixed.content
  simp only [Prod.mk.injEq] at hcontent
  obtain ⟨hstatus, hfields, hbody⟩ := hcontent
  refine ⟨hfixed.after, hstatus.trans h.status, ?_, hbody.trans h.body⟩
  rw [hfields]
  exact h.contentType

theorem Response.apply_send_of_committed {response : Response} (h : response.committed = true)
    (body : ErrorBody) : (response.apply body.send).2 = response := by
  show (response.send ..).2 = response
  rw [send, h]
  rfl

theorem Unwinds.run_unwind {leaves : List (Leave σ)} {error : Option Failure}
    {s : Scene (Hub σ)} {x : Option (Option Failure) × Scene (Hub σ)}
    (h : Unwinds leaves error s x) : (unwind leaves error).run s = x := by
  induction h with
  | nil => rfl
  | cons run _ ih => exact (Act.run_bind_of_some run).trans ih
  | crashed run => exact Act.run_bind_of_none run

namespace Dispatcher

/-! ### From the result of an action on -/

/-- The rest of the way of a request whose action has a result: the request ends with it, filters
are left, and the request is closed. -/
def ending (d : Dispatcher σ) (r : Request) (route : Route σ) (leaves : List (Leave σ))
    (result : Except Fault Unit) : Act (Hub σ) (Option Failure) :=
  d.conclude r route result >>= fun error => unwind leaves error >>= d.close r

section Acted

variable {d : Dispatcher σ} {r : Request} {s t u : Scene (Hub σ)} {leaves : List (Leave σ)}
  {sel : Selection (Route σ)} {jobs : List (Act (Hub σ) Unit)}

/-- **A request that reaches a route** has the action of the route carried out, and goes on. -/
theorem run_service_of_route (entered : Enters r d.filters s leaves t)
    (hselect : select Route.mapping r d.routes = some sel) :
    (d.service r).run s = (d.act r sel.index sel.entry.action >>= fun o =>
      d.follow r sel.entry o >>= fun p => p.andThen fun error =>
        unwind leaves.reverse error >>= d.close r).run
      (t.withVariables sel.pathVars) := by
  rw [run_service_of_enters (List.append_nil _).symm entered, pass, process_eq hselect,
    bind_assoc, Act.run_bind_of_some (Act.run_bindVariables ..), bind_assoc]

theorem run_service_of_settled (entered : Enters r d.filters s leaves t)
    (hselect : select Route.mapping r d.routes = some sel) {result : Except Fault Unit}
    (action : (d.act r sel.index sel.entry.action).run (t.withVariables sel.pathVars) =
      (some (.settled jobs result), u)) :
    (d.service r).run s =
      (((d.ending r sel.entry leaves.reverse result).run u).1.map
        fun error => ⟨jobs, .finished error⟩,
        ((d.ending r sel.entry leaves.reverse result).run u).2) := by
  have hfollow : (d.follow r sel.entry (.settled jobs result) >>= fun p => p.andThen fun error =>
        unwind leaves.reverse error >>= d.close r) =
      d.ending r sel.entry leaves.reverse result >>= fun error =>
        pure ⟨jobs, .finished error⟩ := by
    unfold ending
    rw [bind_assoc]
    exact bind_assoc (d.conclude r sel.entry result) _ _
  rw [run_service_of_route entered hselect, Act.run_bind_of_some action, hfollow,
    Act.run_bind_pure]

theorem run_service_of_waiting (entered : Enters r d.filters s leaves t)
    (hselect : select Route.mapping r d.routes = some sel)
    (action : (d.act r sel.index sel.entry.action).run (t.withVariables sel.pathVars) =
      (some (.waiting jobs), u)) :
    (d.service r).run s = (some ⟨jobs, .waiting fun v =>
      d.ending r sel.entry leaves.reverse (ofVerdict v)⟩, u) := by
  rw [run_service_of_route entered hselect, Act.run_bind_of_some action]
  rfl

theorem run_service_of_crash (entered : Enters r d.filters s leaves t)
    (hselect : select Route.mapping r d.routes = some sel)
    (action : (d.act r sel.index sel.entry.action).run (t.withVariables sel.pathVars) =
      (none, u)) : (d.service r).run s = (none, u) := by
  rw [run_service_of_route entered hselect, Act.run_bind_of_none action]

theorem settled_of_finished (entered : Enters r d.filters s leaves t)
    (hselect : select Route.mapping r d.routes = some sel) {error : Option Failure}
    (run : (d.service r).run s = (some ⟨jobs, .finished error⟩, u)) :
    ∃ result v, (d.act r sel.index sel.entry.action).run
        (t.withVariables sel.pathVars) = (some (.settled jobs result), v) ∧
      (d.ending r sel.entry leaves.reverse result).run v = (some error, u) := by
  rcases haction : (d.act r sel.index sel.entry.action).run
    (t.withVariables sel.pathVars) with ⟨_ | ⟨jobs', result⟩ | jobs', v⟩
  · rw [run_service_of_crash entered hselect haction] at run
    cases run
  · rw [run_service_of_settled entered hselect haction] at run
    obtain ⟨hstage, hscene⟩ := Prod.mk.inj run
    obtain ⟨_, hlast, hstage⟩ := Option.map_eq_some_iff.mp hstage
    cases hstage
    exact ⟨result, v, rfl, Prod.ext hlast hscene⟩
  · rw [run_service_of_waiting entered hselect haction] at run
    cases run

theorem waiting_of_waiting (entered : Enters r d.filters s leaves t)
    (hselect : select Route.mapping r d.routes = some sel)
    {resume : Verdict → Act (Hub σ) (Option Failure)}
    (run : (d.service r).run s = (some ⟨jobs, .waiting resume⟩, u)) :
    (d.act r sel.index sel.entry.action).run (t.withVariables sel.pathVars) =
        (some (.waiting jobs), u) ∧
      resume = fun v => d.ending r sel.entry leaves.reverse (ofVerdict v) := by
  rcases haction : (d.act r sel.index sel.entry.action).run
    (t.withVariables sel.pathVars) with ⟨_ | ⟨jobs', result⟩ | jobs', v⟩
  · rw [run_service_of_crash entered hselect haction] at run
    cases run
  · rw [run_service_of_settled entered hselect haction] at run
    obtain ⟨_, _, hstage⟩ := Option.map_eq_some_iff.mp (Prod.mk.inj run).1
    cases hstage
  · rw [run_service_of_waiting entered hselect haction] at run
    cases run
    exact ⟨rfl, rfl⟩

end Acted

/-! ### The failure that is left -/

variable (d : Dispatcher σ) (r : Request)

/-- **A request comes to the failure that is left**, from the scene `s` on: `error`, in the scene
`u` that error handlers find, with `leaves` of the filters still to be left; the end is `x`. This may
happen in four places. -/
inductive ComesTo (s : Scene (Hub σ)) : (error : Option Failure) → (u : Scene (Hub σ)) →
    (leaves : List (Leave σ)) → (x : Option (Option Failure) × Scene (Hub σ)) → Prop
  /-- No route is for the request. -/
  | missed {leaves : List (Leave σ)} {u : Scene (Hub σ)}
    {x : Option (Option Failure) × Scene (Hub σ)} (entered : Enters r d.filters s leaves u)
    (none : select Route.mapping r d.routes = none)
    (run : (d.service r).run s = (x.1.map .finished, x.2)) :
    ComesTo s (some (noRoute r)) u leaves.reverse x
  /-- The action of the route is settled, and the route has judged the result. -/
  | settled {leaves : List (Leave σ)} {sel : Selection (Route σ)}
    {jobs : List (Act (Hub σ) Unit)} {result : Except Fault Unit} {error : Option Failure}
    {t t' u : Scene (Hub σ)} {x : Option (Option Failure) × Scene (Hub σ)}
    (entered : Enters r d.filters s leaves t)
    (selected : select Route.mapping r d.routes = some sel)
    (action : (d.act r sel.index sel.entry.action).run (t.withVariables sel.pathVars) =
      (some (.settled jobs result), t'))
    (judged : (remaining r sel.entry result).run t' = (some error, u))
    (run : (d.service r).run s = (x.1.map fun error => ⟨jobs, .finished error⟩, x.2)) :
    ComesTo s error u leaves.reverse x
  /-- The action waits; then there is a verdict `v`, in whatever scene `w`, and the route has judged
  it. -/
  | resumed {leaves : List (Leave σ)} {sel : Selection (Route σ)}
    {jobs : List (Act (Hub σ) Unit)} {resume : Verdict → Act (Hub σ) (Option Failure)}
    {v : Verdict} {error : Option Failure} {t t' w u : Scene (Hub σ)}
    (entered : Enters r d.filters s leaves t)
    (selected : select Route.mapping r d.routes = some sel)
    (run : (d.service r).run s = (some ⟨jobs, .waiting resume⟩, t'))
    (judged : (remaining r sel.entry (ofVerdict v)).run w = (some error, u)) :
    ComesTo s error u leaves.reverse ((resume v).run w)
  /-- A filter answers, and all filters that were entered have been left. -/
  | answered {before after : List (Filter σ)} {f : Filter σ} {leaves : List (Leave σ)}
    {error returned : Option Failure} {t t' u : Scene (Hub σ)}
    {x : Option (Option Failure) × Scene (Hub σ)} (filters : d.filters = before ++ f :: after)
    (entered : Enters r before s leaves t)
    (entry : (f.enter r).inHub.run t = (some (.answer error), t'))
    (left : Unwinds leaves.reverse error t' (some returned, u))
    (run : (d.service r).run s = (x.1.map .finished, x.2)) : ComesTo s returned u [] x

/-- **What follows on the failure that is left**: error handlers deal with it, the response is
committed, somebody is told, filters are left, and the request is closed. -/
def aftermath (told : Leave (Hub σ)) (leaves : List (Leave σ)) (error : Option Failure) :
    Act (Hub σ) (Option Failure) :=
  (match error with | some f => d.handleFailure r f | none => pure ()) >>= fun _ =>
    Act.edit .commit >>= fun _ => told error >>= fun error => unwind leaves error >>= d.close r

/-- Who is told about a failure returns it, or crashes. -/
def Echoes (told : Leave (Hub σ)) : Prop :=
  ∀ (error answer : Option Failure) (s t : Scene (Hub σ)),
    (told error).run s = (some answer, t) → answer = error

section Ends

variable {d : Dispatcher σ} {r : Request} {s t u : Scene (Hub σ)} {leaves : List (Leave σ)}
  {error : Option Failure} {x : Option (Option Failure) × Scene (Hub σ)}

theorem echoes_tell (route : Route σ) : Echoes (tell r route) := by
  intro error answer s t hrun
  rcases run_tell ⟨[], .empty, [], []⟩ r route error s with ⟨told, u, h, -, -⟩ | ⟨_, u, -, -, h⟩
  · rw [h] at hrun
    cases hrun
    rfl
  · rw [h] at hrun
    cases hrun

theorem run_ending_of_judged {route : Route σ} {result : Except Fault Unit}
    (judged : (remaining r route result).run t = (some error, u)) :
    (d.ending r route leaves result).run t =
      (d.aftermath r (tell r route) leaves error).run u := by
  unfold ending
  rw [conclude_eq, bind_assoc, Act.run_bind_of_some judged, bind_assoc]
  rfl

theorem run_service_of_missed (entered : Enters r d.filters s leaves t)
    (hselect : select Route.mapping r d.routes = none) :
    (d.service r).run s =
      (((d.aftermath r pure leaves.reverse (some (noRoute r))).run t).1.map .finished,
        ((d.aftermath r pure leaves.reverse (some (noRoute r))).run t).2) := by
  have hprocess : d.process r = d.handleFailure r (noRoute r) >>= fun _ =>
      Act.edit .commit >>= fun _ => pure (.finished (some (noRoute r))) := by
    unfold process
    rw [hselect]
  have hfinished : ∀ leave : Leave (Hub σ),
      Progress.andThen (.finished (some (noRoute r))) leave =
        leave (some (noRoute r)) >>= fun error => pure (.finished error) := fun _ => rfl
  rw [run_service_of_enters (List.append_nil _).symm entered, pass, hprocess, ← Act.run_bind_pure]
  simp only [aftermath, bind_assoc, pure_bind, hfinished]

theorem ended_inj (jobs : List (Act (Hub σ) Unit))
    {y : Option (Option Failure) × Scene (Hub σ)}
    (h : ((x.1.map fun error => ⟨jobs, .finished error⟩ : Option (Progress (Hub σ))), x.2) =
      (y.1.map fun error => ⟨jobs, .finished error⟩, y.2)) : x = y := by
  obtain ⟨hstage, hscene⟩ := Prod.mk.inj h
  refine Prod.ext (Option.map_injective (fun a b hab => ?_) hstage) hscene
  cases hab
  rfl

/-- **From the failure that is left on**, a request has an aftermath; if a filter has answered it and
all filters have been left, it is closed. -/
theorem ComesTo.eq (h : d.ComesTo r s error u leaves x) :
    (∃ told, Echoes told ∧ x = (d.aftermath r told leaves error).run u) ∨
      leaves = [] ∧ x = (d.close r error).run u := by
  cases h with
  | missed entered none run =>
    refine .inl ⟨pure, fun _ _ _ _ hrun => ?_, ended_inj [] ?_⟩
    · cases hrun
      rfl
    · exact run.symm.trans (run_service_of_missed entered none)
  | @settled leaves sel jobs _ _ _ _ _ _ entered selected action judged run =>
    refine .inl ⟨_, echoes_tell (r := r) sel.entry, ended_inj jobs ?_⟩
    rw [← run_ending_of_judged judged]
    exact run.symm.trans (run_service_of_settled entered selected action)
  | @resumed leaves sel jobs resume v error t t' w u entered selected run judged =>
    refine .inl ⟨_, echoes_tell (r := r) sel.entry, ?_⟩
    obtain ⟨-, rfl⟩ := waiting_of_waiting entered selected run
    exact run_ending_of_judged judged
  | @answered before after f leaves error returned t t' u x filters entered entry left run =>
    refine .inr ⟨rfl, ended_inj [] (run.symm.trans ?_)⟩
    have hpass : (d.pass r (f :: after)).run t = (some (.finished error), t') :=
      Act.run_bind_of_some entry
    rw [run_service_of_enters filters entered, Act.run_bind_of_some hpass, Progress.finished,
      run_andThen_finished, Act.run_bind_of_some left.run_unwind]

/-- **What error handlers find is written over**: if there is the default error handler only, the
response in the end is the error body, or what was committed before. -/
theorem ComesTo.fixed {f : Failure} {withCauses : Bool}
    (hdefault : d.errorHandlers = [defaultErrorHandler withCauses])
    (h : d.ComesTo r s (some f) u leaves x) :
    (u.response.apply (ErrorBody.ofFailure f r.path withCauses).send).2.Fixed x.2.response := by
  have hcommitted : (u.response.apply (ErrorBody.ofFailure f r.path withCauses).send).2.committed :=
    Response.committed_apply rfl _
  have hrest : ∀ rest : Unit → Act (Hub σ) (Option Failure),
      (u.response.apply (ErrorBody.ofFailure f r.path withCauses).send).2.Fixed
        ((d.handleFailure r f >>= rest).run u).2.response := by
    intro rest
    rw [Act.run_bind_of_some (run_handleFailure_default hdefault u)]
    exact (Act.evolves_run (rest ()) { u with response := _ }).fixed hcommitted
  rcases h.eq with ⟨told, -, rfl⟩ | ⟨-, rfl⟩
  · exact hrest _
  · cases hclosed : u.response.committed with
    | true =>
      rw [run_close hclosed, Response.apply_send_of_committed hclosed]
      exact .refl hclosed
    | false =>
      have hclose : (d.close r (some f)).run u =
          (d.handleFailure r f >>= fun _ => Act.edit .commit >>= fun _ => pure (some f)).run u := by
        show (if !u.response.committed then _ else _ : Act (Hub σ) (Option Failure)).run u = _
        rw [hclosed]
        rfl
      rw [hclose]
      exact hrest _

/-- **The failure that is left goes on** through the filters that are still to be left. -/
theorem ComesTo.unwinds {returned : Option Failure}
    (h : d.ComesTo r s error u leaves x) (hx : x.1 = some returned) :
    ∃ v, Unwinds leaves error v x := by
  obtain ⟨last, v⟩ := x
  cases hx
  rcases h.eq with ⟨told, hechoes, hrun⟩ | ⟨rfl, hrun⟩
  · obtain ⟨_, w, -, hrun⟩ := Act.exists_of_run_bind hrun.symm
    have hrun : (told error >>= fun error => unwind leaves error >>= d.close r).run
        { w with response := (w.response.apply .commit).2 } = (some returned, v) := hrun
    obtain ⟨answer, w', htold, hrun⟩ := Act.exists_of_run_bind hrun
    cases hechoes _ _ _ _ htold
    have hcommitted : w'.response.committed := ((Act.evolves_of_run htold).fixed rfl).after
    have hsurfaces : Surfaces leaves (some error, w') _ :=
      surfaces_run (d := d) (r := r) hcommitted leaves error
    rw [hrun] at hsurfaces
    cases hsurfaces with
    | left left => exact ⟨w', left⟩
  · have hcloses := closes_close d r error u
    rw [← hrun] at hcloses
    cases hcloses with
    | already => exact ⟨_, .nil error _⟩
    | finished => exact ⟨_, .nil error _⟩

/-! ### Every end -/

theorem exists_judged {route : Route σ} {result : Except Fault Unit} {returned : Option Failure}
    (hrun : (d.ending r route leaves result).run t = (some returned, u)) :
    ∃ error v, (remaining r route result).run t = (some error, v) := by
  unfold ending at hrun
  rw [conclude_eq, bind_assoc] at hrun
  obtain ⟨error, v, hjudged, -⟩ := Act.exists_of_run_bind hrun
  exact ⟨error, v, hjudged⟩

/-- **A request that ends at once** has come to a failure that is left, or to none. -/
theorem exists_comesTo {jobs : List (Act (Hub σ) Unit)} {returned : Option Failure}
    (run : (d.service r).run s = (some ⟨jobs, .finished returned⟩, t)) :
    ∃ error u leaves, d.ComesTo r s error u leaves (some returned, t) := by
  have hnests := nests_service d r s
  generalize hx : (d.service r).run s = x at hnests
  rw [run] at hx
  cases hnests with
  | refused => cases (Prod.mk.inj hx).1
  | lost => cases (Prod.mk.inj hx).1
  | broken => cases (Prod.mk.inj hx).1
  | waits => cases (Prod.mk.inj hx).1
  | @answered _ _ _ _ _ _ _ _ _ x filters entered entry left closed =>
    obtain ⟨hstage, rfl⟩ := Prod.mk.inj hx
    obtain ⟨last, hlast, hstage⟩ := Option.map_eq_some_iff.mp hstage.symm
    cases hstage
    exact ⟨_, _, _, .answered filters entered entry left run⟩
  | @reached leaves _ _ t' _ _ entered =>
    clear hx
    cases hselect : select Route.mapping r d.routes with
    | none =>
      have hmissed := run_service_of_missed entered hselect
      rw [run] at hmissed
      obtain ⟨hstage, rfl⟩ := Prod.mk.inj hmissed
      obtain ⟨last, hlast, hstage⟩ := Option.map_eq_some_iff.mp hstage.symm
      cases hstage
      exact ⟨_, _, _, .missed entered hselect run⟩
    | some sel =>
      obtain ⟨result, v, haction, hending⟩ := settled_of_finished entered hselect run
      obtain ⟨error, w, judged⟩ := exists_judged hending
      exact ⟨_, _, _, .settled entered hselect haction judged run⟩

theorem exists_comesTo_of_waiting {jobs : List (Act (Hub σ) Unit)}
    {resume : Verdict → Act (Hub σ) (Option Failure)} {v : Verdict} {w : Scene (Hub σ)}
    {returned : Option Failure}
    (run : (d.service r).run s = (some ⟨jobs, .waiting resume⟩, t))
    (resumed : (resume v).run w = (some returned, u)) :
    ∃ error v leaves, d.ComesTo r s error v leaves (some returned, u) := by
  have hnests := nests_service d r s
  generalize hx : (d.service r).run s = x at hnests
  rw [run] at hx
  cases hnests with
  | refused => cases (Prod.mk.inj hx).1
  | lost => cases (Prod.mk.inj hx).1
  | broken => cases (Prod.mk.inj hx).1
  | answered =>
    obtain ⟨_, _, hstage⟩ := Option.map_eq_some_iff.mp (Prod.mk.inj hx).1.symm
    cases hstage
  | reached =>
    obtain ⟨_, _, hstage⟩ := Option.map_eq_some_iff.mp (Prod.mk.inj hx).1.symm
    cases hstage
  | @waits leaves _ _ _ t' _ entered =>
    clear hx
    cases hselect : select Route.mapping r d.routes with
    | none =>
      have hmissed := run_service_of_missed entered hselect
      rw [run] at hmissed
      obtain ⟨_, _, hstage⟩ := Option.map_eq_some_iff.mp (Prod.mk.inj hmissed).1.symm
      cases hstage
    | some sel =>
      obtain ⟨-, rfl⟩ := waiting_of_waiting entered hselect run
      obtain ⟨error, v', judged⟩ := exists_judged resumed
      have hcomes := ComesTo.resumed entered hselect run judged
      rw [resumed] at hcomes
      exact ⟨_, _, _, hcomes⟩

end Ends

theorem eq_of_unwinds {leaves : List (Leave σ)} {error returned : Option Failure}
    {s : Scene (Hub σ)} {x : Option (Option Failure) × Scene (Hub σ)}
    (h : Unwinds leaves error s x) (hx : x.1 = some returned)
    (hechoes : ∀ leave ∈ leaves, Echoes fun error => (leave error).inHub) : returned = error := by
  induction h with
  | nil error s =>
    cases hx
    rfl
  | cons run others ih =>
    have hfirst := hechoes _ List.mem_cons_self _ _ _ _ run
    rw [← hfirst]
    exact ih hx fun leave hleave => hechoes leave (List.mem_cons_of_mem _ hleave)
  | crashed run => cases hx

end Dispatcher

namespace Parts

open Dispatcher

theorem errorHandlers_of_default {p : Parts σ} (h : p.errorHandlers = []) :
    p.dispatcher.errorHandlers = [defaultErrorHandler p.withCauses] := by
  rw [dispatcher_eq, h]
  exact List.mergeSort_singleton _

/-- **A response to a failure does not depend on what was written before**, where the default error
handler is the only one. For every request and from every scene on,

* whenever the request comes to a failure `f` that is left, in a scene `u`, whoever has written
  whatever to the response by then: if the response is not committed, it tells in the end about the
  failure and about nothing else; if it is committed, it stays as it is. In both cases the failure
  goes on through the filters that are still to be left, and is what is left in the end if these
  return what they are left with;
* so any two such runs that come to the same failure have the same status, content type and body;
* a request that comes to its end, at once or when it has waited, has come to a failure that is left,
  or to none;
* an exchange ends with the response and the failure of its run. -/
theorem error_response_is_independent (p : Parts σ) (honly : p.errorHandlers = []) (r : Request) :
    let d := p.dispatcher
    (∀ s f u leaves x, d.ComesTo r s (some f) u leaves x →
      (u.response.committed = false → x.2.response.Tells f r.path p.withCauses) ∧
      (u.response.committed = true → u.response.Fixed x.2.response) ∧
      ∀ returned, x.1 = some returned → (∃ v, Unwinds leaves (some f) v x) ∧
        ((∀ leave ∈ leaves, Echoes fun error => (leave error).inHub) → returned = some f)) ∧
    (∀ f s₁ u₁ leaves₁ x₁ s₂ u₂ leaves₂ x₂, d.ComesTo r s₁ (some f) u₁ leaves₁ x₁ →
      d.ComesTo r s₂ (some f) u₂ leaves₂ x₂ →
      u₁.response.committed = false → u₂.response.committed = false →
      x₁.2.response.status = x₂.2.response.status ∧
      x₁.2.response.fields.getAll "Content-Type" = x₂.2.response.fields.getAll "Content-Type" ∧
      x₁.2.response.body = x₂.2.response.body) ∧
    (∀ s jobs stage t, (d.service r).run s = (some ⟨jobs, stage⟩, t) →
      (∀ returned, stage = .finished returned →
        ∃ error u leaves, d.ComesTo r s error u leaves (some returned, t)) ∧
      ∀ resume v w returned w', stage = .waiting resume →
        (resume v).run w = (some returned, w') →
        ∃ error u leaves, d.ComesTo r s error u leaves (some returned, w')) ∧
    ∀ (e : Exchange σ) (hub : Hub σ) returned t, e.isDone = false → e.request = r →
      (∀ jobs, (d.service r).run (e.scene e.runs.length .closed hub) =
          (some ⟨jobs, .finished returned⟩, t) →
        (e.start d hub).1.EndsWith returned t.response) ∧
      ∀ place run resume v, run.state = .waiting resume → run.signal.poll = some v →
        (resume (v.getD (.error abandoned))).run (e.scene place run.signal hub) =
          (some returned, t) →
        (e.wake place run hub).2.1.EndsWith returned t.response := by
  intro d
  have hdefault : d.errorHandlers = [defaultErrorHandler p.withCauses] := errorHandlers_of_default honly
  have htells : ∀ {s f u leaves x}, d.ComesTo r s (some f) u leaves x →
      u.response.committed = false → x.2.response.Tells f r.path p.withCauses := fun h hu =>
    (Response.tells_send hu _ _ _).of_fixed (h.fixed hdefault)
  refine ⟨fun s f u leaves x h => ⟨htells h, fun hu => ?_, fun returned hx => ?_⟩,
    fun f s₁ u₁ leaves₁ x₁ s₂ u₂ leaves₂ x₂ h₁ h₂ hu₁ hu₂ => ?_,
    fun s jobs stage t hrun => ⟨fun returned hstage => ?_, fun resume v w returned w' hstage => ?_⟩,
    fun e hub returned t he hr => ⟨fun jobs hrun => ?_, fun place run resume v =>
      Exchange.endsWith_wake he⟩⟩
  · have hfixed := h.fixed hdefault
    rwa [Response.apply_send_of_committed hu] at hfixed
  · obtain ⟨v, hunwinds⟩ := h.unwinds hx
    exact ⟨⟨v, hunwinds⟩, eq_of_unwinds hunwinds hx⟩
  · have htells₁ := htells h₁ hu₁
    have htells₂ := htells h₂ hu₂
    exact ⟨htells₁.status.trans htells₂.status.symm,
      htells₁.contentType.trans htells₂.contentType.symm, htells₁.body.trans htells₂.body.symm⟩
  · subst hstage
    exact exists_comesTo hrun
  · subst hstage
    exact exists_comesTo_of_waiting hrun
  · subst hr
    exact Exchange.endsWith_start he hrun

/-- A route that writes down half an answer, if the application says so, and fails. -/
def careless : Parts Bool where
  wiring := .empty
  filters := []
  errorHandlers := []
  withCauses := true
  routes := [{
    mapping := .of "/"
    action := .now fun _ => ExceptT.mk do
      if (← Act.notes).app then
        Act.edit (.setStatus .created)
        Act.edit (.addField "content-TYPE" "text/html")
        Act.edit (.write (Utf8.encode "<p>half an"))
      return .error (.raised (.chained "no luck" ["rain"]))
    onError := none
    onComplete := none }]

/-- What a request for that route ends with. -/
def noLuck : Failure := .raised (.chained "no luck" ["rain"])

/-- The exchange of such a request, when its run has begun. -/
def asked (half : Bool) : Exchange Bool :=
  (({ id := 0, request := front } : Exchange Bool).start careless.dispatcher ⟨half, []⟩).1

/-- Who asks is told the same, whether half an answer was written down or not. -/
theorem careless_tells_no_tales :
    (asked true).response.body = (asked false).response.body ∧
    (asked true).response.Tells noLuck "/" true ∧
    (asked true).response.body = Utf8.encode
      ("\x7b\"status\":500,\"error\":\"Internal Server Error\",\"message\":\"no luck\"," ++
        "\"path\":\"/\",\"causes\":[\"rain\"]\x7d") ∧
    (asked true).promise.value = some ⟨.internalServerError, some noLuck⟩ := by
  have hdispatcher : careless.dispatcher =
      ⟨careless.routes, .empty, [], [defaultErrorHandler true]⟩ := by
    rw [dispatcher_eq, byOrder_of_pairwise (by decide), byOrder_of_pairwise (by decide)]
    rfl
  have hcomes : ∀ half, ∃ t u, (careless.dispatcher.service front).run
        (({ id := 0, request := front } : Exchange Bool).scene 0 .closed ⟨half, []⟩) =
          (some ⟨[], .finished (some noLuck)⟩, t) ∧ u.response.committed = false ∧
      careless.dispatcher.ComesTo front
        (({ id := 0, request := front } : Exchange Bool).scene 0 .closed ⟨half, []⟩)
        (some noLuck) u [].reverse (some (some noLuck), t) := by
    intro half
    rw [hdispatcher]
    cases half with
    | false => exact ⟨_, _, rfl, rfl, .settled (.nil _) rfl rfl rfl rfl⟩
    | true => exact ⟨_, _, rfl, rfl, .settled (.nil _) rfl rfl rfl rfl⟩
  obtain ⟨t, u, hrun, hu, hfails⟩ := hcomes true
  obtain ⟨t', u', hrun', hu', hfails'⟩ := hcomes false
  obtain ⟨hone, htwo, -, hexchange⟩ := error_response_is_independent careless rfl front
  have hends := (hexchange _ _ _ _ rfl rfl).1 _ hrun
  have hends' := (hexchange _ _ _ _ rfl rfl).1 _ hrun'
  have htells := (hone _ _ _ _ _ hfails).1 hu
  obtain ⟨-, -, hbody⟩ := htwo _ _ _ _ _ _ _ _ _ hfails hfails' hu hu'
  unfold asked
  rw [hends.response, hends'.response, hends.outcome, htells.status]
  refine ⟨hbody, htells, ?_, rfl⟩
  rw [htells.body]
  decide +kernel

end Parts

end HttpDispatch
