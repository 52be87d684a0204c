import HttpDispatch.Proofs.Binding.Soundness
import HttpDispatch.Proofs.Binding.Trial

/-!
# A bean in place of its fields

A handler may take a bean, or the fields of the bean as parameters of its own. Both are bound by the
same resolvers or stopped by the same fault. Unless an advice acts on the bean itself, a request
comes as far in the fields of the one as in the parameters of the other, and does the same on its
way; what the bean adds is its assembly from the values.

* `Wiring.bindFields_of_bean`: the resolvers of a bean are those of its fields;
* `Wiring.run_advise_of_unsupported`: a parameter that no advice supports;
* `Wiring.bean_behaves_as_fields`: beans and fields, bound and resolved.
-/

namespace HttpDispatch

variable {σ : Type}

namespace Wiring

variable {w : Wiring σ} {h k : Handler σ} {p : Param σ} {b : Bean σ}

/-- **A bean is bound** if its fields are, numbered on their own. -/
theorem bindFields_of_bean (w : Wiring σ) (handler : String) (index : Nat)
    (htype : p.type = .bean b) : w.bindFields handler index [p] =
      (w.bindFields handler 0 b.fields >>= fun fields =>
        pure [w.advise (placed index p) (assembled b fields)] :
        Binder σ (List (Resolver σ))) := by
  obtain ⟨i, name, source, type, required, default⟩ := p
  obtain ⟨bean, fields, assemble⟩ := b
  cases htype
  rw [bindFields, bindParam, bindAs, bindBean, bindFields]
  simp only [bind_assoc, pure_bind]

theorem run_advise_of_unsupported (hnone : ∀ a ∈ w.advices, a.supports p = false)
    (inner : Resolver σ) (r : Request) (s : Scene σ) :
    (w.advise p inner r).run.run s = (inner r).run.run s := by
  have hfilter : (w.advices.filter fun a => a.supports p) = [] :=
    List.filter_eq_nil_iff.mpr fun a ha => by simp [hnone a ha]
  simp [advise, hfilter]

theorem advices_unsupported {l : List (Registration σ)}
    (hnone : ∀ a ∈ l.flatMap Registration.advices, a.supports p = false) :
    ∀ a ∈ (ofList l).advices, a.supports p = false := by
  rw [ofList_eq]
  exact fun a ha => hnone a (List.mem_mergeSort.mp ha)

theorem run_bind_of_error {fault : BindFault} {app app' : σ}
    (hargs : (w.bindFields h.render 0 h.params).run.run app = (.error fault, app')) :
    (w.bind h).run.run app = (.error fault, app') :=
  Binder.run_bind_of_error hargs

theorem run_bind_of_ok {args : List (Resolver σ)} {app mid : σ}
    (hargs : (w.bindFields h.render 0 h.params).run.run app = (.ok args, mid)) :
    (w.bind h).run.run app = (((w.bindReply h).run.run mid).1.map fun reply => ⟨args, reply⟩,
      ((w.bindReply h).run.run mid).2) := by
  rw [Wiring.bind, Binder.run_bind_of_ok hargs]
  rcases hreply : (w.bindReply h).run.run mid with ⟨fault | reply, app'⟩
  · exact Binder.run_bind_of_error hreply
  · exact Binder.run_bind_of_ok hreply

/-- **A bean behaves as its fields.** Of two handlers of one name, `h` takes a bean and `k` takes
the fields of the bean as its parameters. Whatever is registered, resolvers are made for the fields,
nested beans taken apart, each field with its place and its name, and

* a fault on the way stops the binding of the parameters of either handler, and both handlers;
* without a fault the bean is bound by the resolvers of the parameters of `k`, and `h` lacks nothing
  but its reply's resolver; unless an advice acts on the bean itself, a request to `h` is given the
  bean assembled from exactly the arguments that a request to `k` is given, or stops at the field at
  which that one stops.

In each case the state of the application, or the scene, is left as it is left for the other. -/
theorem bean_behaves_as_fields {l : List (Registration σ)} (hparam : h.params = [p])
    (htype : p.type = .bean b) (hfields : k.params = b.fields)
    (hcontroller : h.controller = k.controller) (hname : h.name = k.name) (app : σ) :
    ∃ calls fault app', Makes l k.render (leavesOfFields 0 b.fields) app calls fault app' ∧
      (∀ f, fault = some f →
        ((ofList l).bindFields k.render 0 k.params).run.run app = (.error f, app') ∧
        ((ofList l).bindFields h.render 0 h.params).run.run app = (.error f, app') ∧
        ((ofList l).bind k).run.run app = (.error f, app') ∧
        ((ofList l).bind h).run.run app = (.error f, app')) ∧
      (fault = none → ∃ fields bean, bean = (ofList l).advise (placed 0 p) (assembled b fields) ∧
        ((ofList l).bindFields k.render 0 k.params).run.run app = (.ok fields, app') ∧
        ((ofList l).bindFields h.render 0 h.params).run.run app = (.ok [bean], app') ∧
        (∀ reply app'', ((ofList l).bindReply h).run.run app' = (reply, app'') →
          ((ofList l).bind h).run.run app = (reply.map fun reply => ⟨[bean], reply⟩, app'')) ∧
        ((∀ a ∈ l.flatMap Registration.advices, a.supports (placed 0 p) = false) → ∀ r s,
          (∀ args t, (resolveAll fields r).run.run s = (some (.ok args), t) ↔
            Yields r fields s args t) ∧
          (∀ e t, (resolveAll fields r).run.run s = (e.map .error, t) ↔
            ∃ i, StopsAt r fields i s e t) ∧
          ∀ x t, (bean r).run.run s = (x, t) ↔ Assembles b r fields s x t)) := by
  have hrender : h.render = k.render := by
    rw [Handler.render, Handler.render, hcontroller, hname]
  have hbean := bindFields_of_bean (ofList l) h.render 0 htype
  rw [← hparam, ← hfields, hrender] at hbean
  obtain ⟨calls, hmakes⟩ := makesFor_bindFields l k.render 0 k.params app
  rw [hfields] at hmakes
  rcases hbound : ((ofList l).bindFields k.render 0 b.fields).run.run app with ⟨fault | fields, app'⟩
  all_goals
    rw [hbound] at hmakes
    rw [← hfields] at hbound
  · refine ⟨calls, some fault, app', hmakes, fun f hf => ?_, nofun⟩
    cases hf
    have hargs : ((ofList l).bindFields h.render 0 h.params).run.run app = (.error fault, app') := by
      rw [hrender, hbean, Binder.run_bind_of_error hbound]
    exact ⟨hbound, hargs, run_bind_of_error hbound, run_bind_of_error hargs⟩
  · have hargs : ((ofList l).bindFields h.render 0 h.params).run.run app =
        (.ok [(ofList l).advise (placed 0 p) (assembled b fields)], app') := by
      rw [hrender, hbean, Binder.run_bind_of_ok hbound]
      rfl
    refine ⟨calls, none, app', hmakes, nofun, fun _ => ⟨fields, _, rfl, hbound, hargs,
      fun reply app'' hreply => ?_, fun hnone r s => ⟨fun args t => ?_, fun e t => ?_,
      fun x t => ?_⟩⟩⟩
    · rw [run_bind_of_ok hargs, hreply]
    · exact run_resolveAll_eq_ok_iff
    · exact run_resolveAll_eq_stop_iff
    · rw [run_advise_of_unsupported (advices_unsupported hnone)]
      constructor
      · intro hrun
        have hbecomes := assembles_run b r fields s
        rwa [hrun] at hbecomes
      · exact run_assembled_of_assembles

/-- Pages that are counted from one, as an advice on whatever is called a page. -/
def countedFromOne : Advice Unit where
  order := 0
  supports p := p.name == "page"
  before _ := pure ()
  after a _ :=
    match a with
    | .scalar (.whole .u32 n) => pure (.scalar (.whole .u32 (n - 1)))
    | _ => pure a

/-- A bean whose only field is a bean. -/
def listing : Bean Unit where
  name := "Listing"
  fields := [.of "paging" .bean (.bean paging)]
  assemble _ args :=
    match args.get "Paging" 0 with
    | .ok a => pure (.record "Listing" [("paging", a)])
    | .error f => throw (.mismatch f)

/-- A handler of some parameters, which answers nothing. -/
def silent (params : List (Param Unit)) : Handler Unit :=
  ⟨"books", "list", params, "()", none, fun _ _ => pure .nothing⟩

/-- The built-in wiring and an advice on pages. -/
def paged : Wiring Unit := ofList [.defaults, .formatParam none, .advice countedFromOne]

theorem paged_eq : paged = ⟨defaultFactories, [countedFromOne], [pinnedFactory, negotiatingFactory],
    [], ⟨[.json], none⟩⟩ := by
  have hadvices : byOrder Advice.order [countedFromOne] = [countedFromOne] :=
    byOrder_of_pairwise (List.pairwise_singleton _ _)
  show { Wiring.default none with advices := byOrder Advice.order [countedFromOne] } = _
  rw [hadvices, default_eq]

/-- The resolver of a page with its advice. -/
def pageResolver : Resolver Unit :=
  advised [countedFromOne] (resolveNamed .query (.scalar (.whole .u32)) ⟨"page", true, none⟩)

/-- The resolver of the listing. -/
def listingResolver : Resolver Unit :=
  advised [] (assembled listing [advised [] (assembled paging [pageResolver])])

/-- The listing of the seventh page. -/
def seventhListing : Arg :=
  .record "Listing" [("paging", .record "Paging" [("page", .scalar (.whole .u32 6))])]

theorem run_pageResolver (s : Scene Unit) :
    (pageResolver seventhPage).run.run s = (some (.ok (.scalar (.whole .u32 6))), s) := by
  have hbefore : ([countedFromOne].forM fun a => a.before seventhPage).run.run s =
      (some (.ok ()), s) := rfl
  show ((_ : Attempt Unit Unit) >>= fun _ => _).run.run s = _
  rw [Attempt.run_bind_of_ok hbefore, Attempt.run_bind_of_ok (run_resolveNamed_seventhPage s)]
  rfl

theorem run_pagingResolver (s : Scene Unit) :
    (advised [] (assembled paging [pageResolver]) seventhPage).run.run s =
      (some (.ok (.record "Paging" [("page", .scalar (.whole .u32 6))])), s) := by
  rw [run_advised_nil]
  exact run_assembled_of_assembles (.assembled (.cons (run_pageResolver s) .nil) rfl)

/-- The listing is bound and assembled as its field is. -/
theorem listing_is_its_fields :
    (paged.bindFields "books#list" 0 listing.fields).run.run () =
        (.ok [advised [] (assembled paging [pageResolver])], ()) ∧
      (paged.bindFields "books#list" 0 [.of "listing" .bean (.bean listing)]).run.run () =
        (.ok [listingResolver], ()) ∧
      ∀ s, (listingResolver seventhPage).run.run s = (some (.ok seventhListing), s) := by
  have hbound : (paged.bindFields "books#list" 0 listing.fields).run.run () =
      (.ok [advised [] (assembled paging [pageResolver])], ()) := by
    rw [paged_eq]
    rfl
  have hnone : ∀ a ∈ [Registration.defaults, .formatParam none, .advice countedFromOne].flatMap
      Registration.advices, a.supports (placed 0 (.of "listing" .bean (.bean listing))) = false := by
    intro a ha
    rw [List.mem_singleton.mp ha]
    decide
  have hadvise : paged.advise (placed 0 (.of "listing" .bean (.bean listing))) (assembled listing
      [advised [] (assembled paging [pageResolver])]) = listingResolver := by
    rw [paged_eq]
    rfl
  obtain ⟨calls, fault, ⟨⟩, -, hstop, hok⟩ := bean_behaves_as_fields
    (l := [.defaults, .formatParam none, .advice countedFromOne])
    (h := silent [.of "listing" .bean (.bean listing)]) (k := silent listing.fields)
    rfl rfl rfl rfl rfl ()
  cases fault with
  | some fault =>
    have hfields := (hstop fault rfl).1
    cases hbound.symm.trans hfields
  | none =>
    obtain ⟨fields, bean, hbean, hfields, hargs, -, hresolve⟩ := hok rfl
    cases hbound.symm.trans hfields
    obtain rfl := hbean.trans hadvise
    refine ⟨hbound, hargs, fun s => ((hresolve hnone seventhPage s).2.2 _ _).mpr ?_⟩
    exact .assembled (.cons (run_pagingResolver s) .nil) rfl

end Wiring

end HttpDispatch
