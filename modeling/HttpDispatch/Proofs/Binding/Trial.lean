import HttpDispatch.Proofs.Binding.Order

/-!
# A trial to bind a handler

To bind a handler, resolvers are made one after the other: for its parameters from left to right,
where the fields of a bean stand in its place, then for its replies. Each is made by the first of
the registered factories that supports what it is for. The trial is over with the first resolver
that cannot be made, or with the last one.

* `leavesOfFields`: the parameters that resolvers are made for, beans taken apart;
* `Wiring.Makes`: resolvers are made for parameters, up to the first fault;
* `Wiring.Tries`: resolvers are made for a handler;
* `Wiring.tries_bind`: that is what binding does, whatever the factories do.
-/

namespace HttpDispatch

variable {σ α β : Type}

/-! ### Beans taken apart -/

mutual

/-- The parameters that resolvers are made for in a parameter of the given type. -/
def leavesAs (index : Nat) (p : Param σ) : ParamType σ → List (Param σ)
  | .bean b => leavesOfBean b
  | _ => [Wiring.placed index p]

/-- The parameters that resolvers are made for in a bean. -/
def leavesOfBean : Bean σ → List (Param σ)
  | ⟨_, fields, _⟩ => leavesOfFields 0 fields

/-- **The parameters that resolvers are made for**, from left to right, each with its place among
the parameters of the handler or the fields of the bean that it stands in. -/
def leavesOfFields (index : Nat) : List (Param σ) → List (Param σ)
  | [] => []
  | p :: rest => leavesOfParam index p ++ leavesOfFields (index + 1) rest

/-- The parameters that resolvers are made for in a parameter at the given place. -/
def leavesOfParam (index : Nat) : Param σ → List (Param σ)
  | ⟨i, name, source, type, required, default⟩ =>
    leavesAs index ⟨i, name, source, type, required, default⟩ type

end

/-! ### Binders that run -/

/-- The fault that stops a binder, if one does. -/
def fault? : Except BindFault α → Option BindFault
  | .ok _ => none
  | .error fault => some fault

namespace Binder

variable {x : Binder σ α} {g : α → Binder σ β} {app mid : σ}

theorem run_bind_of_ok {a : α} (h : x.run.run app = (.ok a, mid)) :
    (x >>= g).run.run app = (g a).run.run mid := by
  show (ExceptT.bindCont g (x.run.run app).1 : StateM σ _) (x.run.run app).2 = _
  rw [h]
  rfl

theorem run_bind_of_error {fault : BindFault} (h : x.run.run app = (.error fault, mid)) :
    (x >>= g).run.run app = (.error fault, mid) := by
  show (ExceptT.bindCont g (x.run.run app).1 : StateM σ _) (x.run.run app).2 = _
  rw [h]
  rfl

end Binder

/-! ### What is made -/

/-- A resolver is asked for: of a factory for a parameter, or of a factory for replies. -/
inductive Creation (σ : Type) where
  | argument (f : Factory σ) (p : Param σ)
  | reply (f : ReplyFactory σ)

namespace Wiring

/-- **Resolvers are made for parameters** from left to right, in a state of the application: which
are asked for, the fault that ends it before the last parameter if one does, and the state then. -/
inductive Makes (l : List (Registration σ)) (handler : String) :
    List (Param σ) → σ → List (Creation σ) → Option BindFault → σ → Prop
  | nil {app : σ} : Makes l handler [] app [] none app
  | unsupported {p : Param σ} {rest : List (Param σ)} {app : σ}
    (nobody : ∀ f ∈ l.flatMap Registration.factories, f.supports p = false) :
    Makes l handler (p :: rest) app [] (some (.noResolver handler p.index p.name)) app
  | refused {p : Param σ} {rest : List (Param σ)} {f : Factory σ} {fault : BindFault} {app app' : σ}
    (first : IsFirst Factory.order (l.flatMap Registration.factories) (fun f => f.supports p) f)
    (create : f.create p (ofList l).codecs app = (.error fault, app')) :
    Makes l handler (p :: rest) app [.argument f p] (some fault) app'
  | made {p : Param σ} {rest : List (Param σ)} {f : Factory σ} {resolver : Resolver σ}
    {calls : List (Creation σ)} {stop : Option BindFault} {app mid app' : σ}
    (first : IsFirst Factory.order (l.flatMap Registration.factories) (fun f => f.supports p) f)
    (create : f.create p (ofList l).codecs app = (.ok resolver, mid))
    (others : Makes l handler rest mid calls stop app') :
    Makes l handler (p :: rest) app (.argument f p :: calls) stop app'

/-- **Resolvers are made for a handler**, for its parameters and then for its replies. -/
inductive Tries (l : List (Registration σ)) (h : Handler σ) (app : σ) :
    List (Creation σ) → Option BindFault → σ → Prop
  | stopped {calls : List (Creation σ)} {fault : BindFault} {app' : σ}
    (arguments : Makes l h.render (leavesOfFields 0 h.params) app calls (some fault) app') :
    Tries l h app calls (some fault) app'
  | unsupported {calls : List (Creation σ)} {app' : σ}
    (arguments : Makes l h.render (leavesOfFields 0 h.params) app calls none app')
    (nobody : ∀ f ∈ l.flatMap Registration.replyFactories, f.supports h = false) :
    Tries l h app calls (some (.noReplyResolver h.render)) app'
  | refused {calls : List (Creation σ)} {f : ReplyFactory σ} {fault : BindFault} {mid app' : σ}
    (arguments : Makes l h.render (leavesOfFields 0 h.params) app calls none mid)
    (first : IsFirst ReplyFactory.order (l.flatMap Registration.replyFactories)
      (fun f => f.supports h) f)
    (create : f.create h (ofList l).codecs mid = (.error fault, app')) :
    Tries l h app (calls ++ [.reply f]) (some fault) app'
  | made {calls : List (Creation σ)} {f : ReplyFactory σ} {resolver : ReplyResolver σ}
    {mid app' : σ} (arguments : Makes l h.render (leavesOfFields 0 h.params) app calls none mid)
    (first : IsFirst ReplyFactory.order (l.flatMap Registration.replyFactories)
      (fun f => f.supports h) f)
    (create : f.create h (ofList l).codecs mid = (.ok resolver, app')) :
    Tries l h app (calls ++ [.reply f]) none app'

variable {l : List (Registration σ)} {handler : String} {ps qs : List (Param σ)}
  {calls later : List (Creation σ)} {stop : Option BindFault} {app mid app' : σ}

theorem Makes.append (h : Makes l handler ps app calls none mid)
    (k : Makes l handler qs mid later stop app') :
    Makes l handler (ps ++ qs) app (calls ++ later) stop app' := by
  generalize hnone : (none : Option BindFault) = x at h
  induction h with
  | nil => exact k
  | unsupported => cases hnone
  | refused => cases hnone
  | made first create _ ih => exact .made first create (ih k hnone)

theorem Makes.append_of_fault {fault : BindFault}
    (h : Makes l handler ps app calls (some fault) app') (qs : List (Param σ)) :
    Makes l handler (ps ++ qs) app calls (some fault) app' := by
  generalize hsome : some fault = x at h ⊢
  induction h with
  | nil => cases hsome
  | unsupported nobody => exact .unsupported nobody
  | refused first create => exact .refused first create
  | made first create _ ih => exact .made first create (ih hsome)

/-! ### What binding makes -/

/-- A binder makes what there is to make for some parameters. -/
def MakesFor (l : List (Registration σ)) (handler : String) (ps : List (Param σ))
    (x : Binder σ α) : Prop :=
  ∀ app, ∃ calls, Makes l handler ps app calls (fault? (x.run.run app).1) (x.run.run app).2

theorem MakesFor.map {x : Binder σ α} (h : MakesFor l handler ps x) (g : α → β) :
    MakesFor l handler ps (x >>= fun a => pure (g a)) := by
  intro app
  obtain ⟨calls, hcalls⟩ := h app
  rcases hx : x.run.run app with ⟨_ | a, mid⟩
  · rw [hx] at hcalls
    rw [Binder.run_bind_of_error hx]
    exact ⟨calls, hcalls⟩
  · rw [hx] at hcalls
    rw [Binder.run_bind_of_ok hx]
    exact ⟨calls, hcalls⟩

/-- **One binder after the other** makes what there is to make for both. -/
theorem MakesFor.bind {x : Binder σ α} {g : α → Binder σ β} (h : MakesFor l handler ps x)
    (k : ∀ a, MakesFor l handler qs (g a)) : MakesFor l handler (ps ++ qs) (x >>= g) := by
  intro app
  obtain ⟨calls, hcalls⟩ := h app
  rcases hx : x.run.run app with ⟨fault | a, mid⟩
  · rw [hx] at hcalls
    rw [Binder.run_bind_of_error hx]
    exact ⟨calls, hcalls.append_of_fault qs⟩
  · rw [hx] at hcalls
    rw [Binder.run_bind_of_ok hx]
    obtain ⟨later, hlater⟩ := k a mid
    exact ⟨calls ++ later, hcalls.append hlater⟩

/-- **One parameter**: the first factory that supports it is asked, and no other. -/
theorem makesFor_bindPlain (l : List (Registration σ)) (handler : String) (p : Param σ) :
    MakesFor l handler [p] ((ofList l).bindPlain handler p) := by
  intro app
  rcases bindPlain_cases l handler p with ⟨f, hfirst, hbind⟩ | ⟨hnone, hbind⟩
  · rw [hbind]
    rcases hcreate : f.create p (ofList l).codecs app with ⟨fault | resolver, app'⟩
    · refine ⟨[.argument f p], ?_⟩
      show Makes l handler [p] app _ (fault? (f.create p (ofList l).codecs app).1)
        (f.create p (ofList l).codecs app).2
      rw [hcreate]
      exact .refused hfirst hcreate
    · refine ⟨[.argument f p], ?_⟩
      show Makes l handler [p] app _ (fault? (f.create p (ofList l).codecs app).1)
        (f.create p (ofList l).codecs app).2
      rw [hcreate]
      exact .made hfirst hcreate .nil
  · rw [hbind]
    exact ⟨[], .unsupported hnone⟩

mutual

theorem makesFor_bindAs (l : List (Registration σ)) (handler : String) (index : Nat)
    (p : Param σ) : ∀ type : ParamType σ,
      MakesFor l handler (leavesAs index p type) ((ofList l).bindAs handler index p type)
  | .bean b => by
    rw [leavesAs, bindAs]
    exact (makesFor_bindBean l handler b).map _
  | .scalar _ | .option _ | .list _ | .bytes | .entity _ | .file | .files | .request | .response =>
    (makesFor_bindPlain l handler (placed index p)).map _

theorem makesFor_bindBean (l : List (Registration σ)) (handler : String) : ∀ b : Bean σ,
    MakesFor l handler (leavesOfBean b) ((ofList l).bindBean handler b)
  | ⟨_, fields, _⟩ => by
    rw [leavesOfBean, bindBean]
    exact makesFor_bindFields l handler 0 fields

theorem makesFor_bindFields (l : List (Registration σ)) (handler : String) (index : Nat) :
    ∀ fields : List (Param σ),
      MakesFor l handler (leavesOfFields index fields) ((ofList l).bindFields handler index fields)
  | [] => by
    rw [leavesOfFields, bindFields]
    exact fun app => ⟨[], .nil⟩
  | p :: rest => by
    rw [leavesOfFields, bindFields]
    exact (makesFor_bindParam l handler index p).bind fun f =>
      (makesFor_bindFields l handler (index + 1) rest).map _

theorem makesFor_bindParam (l : List (Registration σ)) (handler : String) (index : Nat) :
    ∀ p : Param σ,
      MakesFor l handler (leavesOfParam index p) ((ofList l).bindParam handler index p)
  | ⟨i, name, source, type, required, default⟩ => by
    rw [leavesOfParam, bindParam]
    exact makesFor_bindAs l handler index _ type

end

/-- **The replies**: the first factory that supports the handler is asked, and no other. -/
theorem run_bindReply (l : List (Registration σ)) (h : Handler σ) (app : σ) :
    ((∀ f ∈ l.flatMap Registration.replyFactories, f.supports h = false) ∧
      ((ofList l).bindReply h).run.run app = (.error (.noReplyResolver h.render), app)) ∨
    ∃ f, IsFirst ReplyFactory.order (l.flatMap Registration.replyFactories)
        (fun f => f.supports h) f ∧
      ((∃ fault app', f.create h (ofList l).codecs app = (.error fault, app') ∧
        ((ofList l).bindReply h).run.run app = (.error fault, app')) ∨
      ∃ inner reply app', f.create h (ofList l).codecs app = (.ok inner, app') ∧
        ((ofList l).bindReply h).run.run app = (.ok reply, app')) := by
  rcases bindReply_cases l h with ⟨f, hfirst, hbind⟩ | ⟨hnone, hbind⟩
  · refine .inr ⟨f, hfirst, ?_⟩
    rw [hbind]
    rcases hcreate : f.create h (ofList l).codecs app with ⟨fault | inner, app'⟩
    · exact .inl ⟨fault, app', rfl, Binder.run_bind_of_error hcreate⟩
    · exact .inr ⟨inner, _, app', rfl, Binder.run_bind_of_ok hcreate⟩
  · rw [hbind]
    exact .inl ⟨hnone, rfl⟩

/-- **Binding is such a trial**, whatever is registered and whatever the factories do: in every
state of the application, binding a handler makes resolvers as `Tries` says, and has its result. -/
theorem tries_bind (l : List (Registration σ)) (h : Handler σ) (app : σ) :
    ∃ calls, Tries l h app calls (fault? (((ofList l).bind h).run.run app).1)
      (((ofList l).bind h).run.run app).2 := by
  obtain ⟨calls, hcalls⟩ := makesFor_bindFields l h.render 0 h.params app
  unfold Wiring.bind
  rcases hargs : ((ofList l).bindFields h.render 0 h.params).run.run app with ⟨fault | args, mid⟩
  · rw [hargs] at hcalls
    rw [Binder.run_bind_of_error hargs]
    exact ⟨calls, .stopped hcalls⟩
  · rw [hargs] at hcalls
    rw [Binder.run_bind_of_ok hargs]
    rcases run_bindReply l h mid with ⟨hnobody, hreply⟩ |
      ⟨f, hfirst, ⟨fault, app', hcreate, hreply⟩ | ⟨inner, reply, app', hcreate, hreply⟩⟩
    · rw [Binder.run_bind_of_error hreply]
      exact ⟨calls, .unsupported hcalls hnobody⟩
    · rw [Binder.run_bind_of_error hreply]
      exact ⟨calls ++ [.reply f], .refused hcalls hfirst hcreate⟩
    · rw [Binder.run_bind_of_ok hreply]
      exact ⟨calls ++ [.reply f], .made hcalls hfirst hcreate⟩

end Wiring

end HttpDispatch
