import Mathlib.Data.List.Forall2
import HttpDispatch.Pipeline.Dispatcher
import HttpDispatch.Proofs.Binding.Beans

/-!
# The hooks of a handler

For the arguments of a handler a row of hooks is called: for each parameter the advices in front of
it, what makes its argument, and the advices behind it, where the hooks of the fields of a bean and
its assembly stand in its place. The row is fixed when the handler is bound. In a request the hooks
are called one after the other, each with the values that those before it have left, up to the first
that fails; the handler is called if none does.

* `Hook.Ends`: what a single hook comes to;
* `Performs`: hooks are called in a row, up to the first that fails;
* `Follows`: a resolver does what a row of hooks does;
* `Wiring.Schedules`: the rows of the parameters of a handler;
* `Wiring.hooks_run_in_order`: the arguments of a bound handler.
-/

namespace HttpDispatch

variable {σ α β : Type}

/-! ### Hooks -/

/-- What is called for the arguments of a handler. -/
inductive Hook (σ : Type) where
  | before (a : Advice σ)
  | resolve (f : Resolver σ)
  | after (a : Advice σ)
  | assemble (b : Bean σ)

namespace Hook

/-- Hooks with all advices before and after. -/
def around (advices : List (Advice σ)) (inner : List (Hook σ)) : List (Hook σ) :=
  advices.map before ++ inner ++ advices.map after

/-- What becomes of values when a bean behind them is assembled: arguments that do not fit make a
bad request. -/
def assembly (name : String) (values : Args) : Except CallFault Arg → Except Failure Args
  | .ok v => .ok (values ++ [v])
  | .error (.mismatch f) => .error (.badRequest s!"cannot assemble {name}: {f.message}")
  | .error (.failed e) => .error e

/-- **What a hook comes to** where values have been found: the values afterwards, a failure, or a
crash. A resolver adds a value, an advice behind it is given that value and puts its own in the
place, and a bean is assembled from as many values as it has fields. -/
inductive Ends (r : Request) : Hook σ → Args → Scene σ → Option (Except Failure Args) →
    Scene σ → Prop
  | before {a : Advice σ} {values : Args} {s t : Scene σ} {x : Option (Except Failure Unit)}
    (run : (a.before r).run.run s = (x, t)) :
    Ends r (.before a) values s (x.map (Except.map fun _ => values)) t
  | resolve {f : Resolver σ} {values : Args} {s t : Scene σ} {x : Option (Except Failure Arg)}
    (run : (f r).run.run s = (x, t)) :
    Ends r (.resolve f) values s (x.map (Except.map fun v => values ++ [v])) t
  | after {a : Advice σ} {values : Args} {v : Arg} {s t : Scene σ}
    {x : Option (Except Failure Arg)} (run : (a.after v r).run.run s = (x, t)) :
    Ends r (.after a) (values ++ [v]) s (x.map (Except.map fun v => values ++ [v])) t
  | assemble {b : Bean σ} {values args : Args} {s t : Scene σ}
    {x : Option (Except CallFault Arg)} (all : args.length = b.fields.length)
    (run : (b.assemble r args).run.run s = (x, t)) :
    Ends r (.assemble b) (values ++ args) s (x.map (assembly b.name values)) t

/-- The hook adds its label to a log when it is called, whatever it comes to. -/
def Logs {τ : Type} (r : Request) (log : Scene σ → List τ) (label : Hook σ → τ) (hook : Hook σ) :
    Prop :=
  ∀ values s x t, hook.Ends r values s x t → log t = log s ++ [label hook]

theorem Ends.unique {r : Request} {hook : Hook σ} {values : Args} {s t u : Scene σ}
    {x y : Option (Except Failure Args)} (h : hook.Ends r values s x t)
    (k : hook.Ends r values s y u) : x = y ∧ t = u := by
  generalize hvalues : values = values' at k
  cases h with
  | before run =>
    cases k with
    | before run' =>
      cases run.symm.trans run'
      exact ⟨by rw [hvalues], rfl⟩
  | resolve run =>
    cases k with
    | resolve run' =>
      cases run.symm.trans run'
      exact ⟨by rw [hvalues], rfl⟩
  | after run =>
    cases k with
    | after run' =>
      obtain ⟨rfl, hv⟩ := List.append_inj' hvalues rfl
      cases hv
      cases run.symm.trans run'
      exact ⟨rfl, rfl⟩
  | assemble all run =>
    cases k with
    | assemble all' run' =>
      obtain ⟨rfl, rfl⟩ := List.append_inj' hvalues (all.trans all'.symm)
      cases run.symm.trans run'
      exact ⟨rfl, rfl⟩

end Hook

/-! ### Hooks in a row -/

/-- **Hooks are called in a row**, each with the values that those before it have left, up to the
first that fails or crashes: which of them are called, what they come to, and the scene in the
end. -/
inductive Performs (r : Request) : List (Hook σ) → Args → Scene σ → List (Hook σ) →
    Option (Except Failure Args) → Scene σ → Prop
  | done {values : Args} {s : Scene σ} : Performs r [] values s [] (some (.ok values)) s
  | next {hook : Hook σ} {hooks made : List (Hook σ)} {values found : Args} {s t u : Scene σ}
    {x : Option (Except Failure Args)} (call : hook.Ends r values s (some (.ok found)) t)
    (others : Performs r hooks found t made x u) :
    Performs r (hook :: hooks) values s (hook :: made) x u
  | failed {hook : Hook σ} {hooks : List (Hook σ)} {values : Args} {s t : Scene σ} {e : Failure}
    (call : hook.Ends r values s (some (.error e)) t) :
    Performs r (hook :: hooks) values s [hook] (some (.error e)) t
  | crashed {hook : Hook σ} {hooks : List (Hook σ)} {values : Args} {s t : Scene σ}
    (call : hook.Ends r values s none t) : Performs r (hook :: hooks) values s [hook] none t

namespace Performs

variable {r : Request} {hook : Hook σ} {hooks later made made' : List (Hook σ)}
  {values found : Args} {s t u : Scene σ} {x y : Option (Except Failure Args)}

theorem of_ends (h : hook.Ends r values s x t) : Performs r [hook] values s [hook] x t := by
  match x with
  | some (.ok found) => exact .next h .done
  | some (.error e) => exact .failed h
  | none => exact .crashed h

theorem isPrefix (h : Performs r hooks values s made x t) : made <+: hooks := by
  induction h with
  | done => exact List.prefix_rfl
  | next _ _ ih => exact (List.cons_prefix_cons).mpr ⟨rfl, ih⟩
  | failed => exact (List.cons_prefix_cons).mpr ⟨rfl, List.nil_prefix⟩
  | crashed => exact (List.cons_prefix_cons).mpr ⟨rfl, List.nil_prefix⟩

theorem made_eq (h : Performs r hooks values s made (some (.ok found)) t) : made = hooks := by
  generalize hx : some (Except.ok found) = x at h
  induction h with
  | done => rfl
  | next _ _ ih => rw [ih hx]
  | failed => cases hx
  | crashed => cases hx

/-- **A log that the hooks keep** says which of them were called. -/
theorem log_eq {τ : Type} {log : Scene σ → List τ} {label : Hook σ → τ}
    (h : Performs r hooks values s made x t) (hlogs : ∀ hook ∈ hooks, hook.Logs r log label) :
    log t = log s ++ made.map label := by
  induction h with
  | done => rw [List.map_nil, List.append_nil]
  | next call _ ih =>
    have hfirst := hlogs _ List.mem_cons_self _ _ _ _ call
    rw [ih fun hook hhook => hlogs hook (List.mem_cons_of_mem _ hhook), hfirst, List.map_cons,
      List.append_assoc, List.singleton_append]
  | failed call => exact hlogs _ List.mem_cons_self _ _ _ _ call
  | crashed call => exact hlogs _ List.mem_cons_self _ _ _ _ call

/-- **There is one way** in which a row of hooks is called. -/
theorem unique (h : Performs r hooks values s made x t) (k : Performs r hooks values s made' y u) :
    made' = made ∧ y = x ∧ u = t := by
  induction h generalizing made' with
  | done =>
    cases k
    exact ⟨rfl, rfl, rfl⟩
  | next call _ ih =>
    cases k with
    | next call' others' =>
      obtain ⟨hfound, rfl⟩ := call.unique call'
      cases hfound
      obtain ⟨rfl, rfl, rfl⟩ := ih others'
      exact ⟨rfl, rfl, rfl⟩
    | failed call' => cases (call.unique call').1
    | crashed call' => cases (call.unique call').1
  | failed call =>
    cases k with
    | next call' _ => cases (call.unique call').1
    | failed call' =>
      obtain ⟨he, rfl⟩ := call.unique call'
      cases he
      exact ⟨rfl, rfl, rfl⟩
    | crashed call' => cases (call.unique call').1
  | crashed call =>
    cases k with
    | next call' _ => cases (call.unique call').1
    | failed call' => cases (call.unique call').1
    | crashed call' =>
      obtain ⟨-, rfl⟩ := call.unique call'
      exact ⟨rfl, rfl, rfl⟩

/-- **One row after the other** is one row. -/
theorem append (h : Performs r hooks values s made (some (.ok found)) t)
    (k : Performs r later found t made' x u) :
    Performs r (hooks ++ later) values s (made ++ made') x u := by
  generalize hx : some (Except.ok found) = y at h
  induction h with
  | done =>
    cases hx
    exact k
  | next call _ ih => exact .next call (ih k hx)
  | failed => cases hx
  | crashed => cases hx

theorem append_of_stop (h : Performs r hooks values s made x t) (hx : ∀ found, x ≠ some (.ok found))
    (later : List (Hook σ)) : Performs r (hooks ++ later) values s made x t := by
  induction h with
  | done => exact absurd rfl (hx _)
  | next call _ ih => exact .next call (ih hx)
  | failed call => exact .failed call
  | crashed call => exact .crashed call

end Performs

/-! ### Attempts that call hooks -/

/-- An attempt does what a row of hooks does, and has in the end what makes these values. -/
def RunsAs (r : Request) (hooks : List (Hook σ)) (values : Args) (x : Attempt σ α) (g : α → Args) :
    Prop :=
  ∀ s, ∃ made, Performs r hooks values s made ((x.run.run s).1.map (Except.map g)) (x.run.run s).2

namespace RunsAs

variable {r : Request} {hooks later : List (Hook σ)} {values : Args} {x : Attempt σ α}
  {k : α → Attempt σ β} {g : α → Args} {g' : β → Args}

theorem pure (a : α) (g : α → Args) : RunsAs r [] (g a) (Pure.pure a : Attempt σ α) g :=
  fun _ => ⟨[], .done⟩

/-- **One attempt after the other** calls the hooks of both. -/
theorem bind (hx : RunsAs r hooks values x g)
    (hk : ∀ a s t, x.run.run s = (some (.ok a), t) → RunsAs r later (g a) (k a) g') :
    RunsAs r (hooks ++ later) values (x >>= k) g' := by
  intro s
  obtain ⟨made, hmade⟩ := hx s
  rcases hrun : x.run.run s with ⟨_ | e | a, t⟩
  · rw [hrun] at hmade
    rw [Attempt.run_bind_of_none hrun]
    exact ⟨made, hmade.append_of_stop (fun found hok => by cases hok) later⟩
  · rw [hrun] at hmade
    rw [Attempt.run_bind_of_error hrun]
    exact ⟨made, hmade.append_of_stop (fun found hok => by cases hok) later⟩
  · rw [hrun] at hmade
    rw [Attempt.run_bind_of_ok hrun]
    obtain ⟨made', hmade'⟩ := hk a s t hrun t
    exact ⟨made ++ made', hmade.append hmade'⟩

theorem befores (r : Request) (values : Args) : ∀ advices : List (Advice σ),
    RunsAs r (advices.map .before) values (advices.forM fun a => a.before r) fun _ => values
  | [] => pure () fun _ => values
  | a :: advices => by
    have hfirst : RunsAs r [.before a] values (a.before r) fun _ => values :=
      fun s => ⟨_, .of_ends (.before rfl)⟩
    exact hfirst.bind fun _ _ _ _ => befores r values advices

theorem afters (r : Request) (values : Args) : ∀ (advices : List (Advice σ)) (v : Arg),
    RunsAs r (advices.map .after) (values ++ [v])
      (advices.foldlM (fun v a => a.after v r) v) fun v => values ++ [v]
  | [], v => pure v fun v => values ++ [v]
  | a :: advices, v => by
    have hfirst : RunsAs r [.after a] (values ++ [v]) (a.after v r) fun v => values ++ [v] :=
      fun s => ⟨_, .of_ends (.after rfl)⟩
    rw [List.foldlM_cons]
    exact hfirst.bind fun v' _ _ _ => afters r values advices v'

end RunsAs

/-! ### Resolvers that call hooks -/

/-- **A resolver does what a row of hooks does** that leaves one more value. -/
def Follows (f : Resolver σ) (hooks : List (Hook σ)) : Prop :=
  ∀ r values, RunsAs r hooks values (f r) fun v => values ++ [v]

theorem follows_resolve (f : Resolver σ) : Follows f [.resolve f] :=
  fun _ _ _ => ⟨_, .of_ends (.resolve rfl)⟩

/-- **Advices** are called around what makes the argument. -/
theorem Follows.advised {f : Resolver σ} {hooks : List (Hook σ)} (h : Follows f hooks)
    (advices : List (Advice σ)) : Follows (advised advices f) (Hook.around advices hooks) := by
  intro r values
  rw [Hook.around, List.append_assoc]
  refine (RunsAs.befores r values advices).bind fun _ _ _ _ => ?_
  exact (h r values).bind fun v _ _ _ => RunsAs.afters r values advices v

/-- **Resolvers in a row** call their hooks in a row. -/
theorem runsAs_resolveAll {resolvers : List (Resolver σ)} {rows : List (List (Hook σ))}
    (h : List.Forall₂ Follows resolvers rows) (r : Request) (values : Args) :
    RunsAs r rows.flatten values (resolveAll resolvers r) (values ++ ·) := by
  induction h generalizing values with
  | nil =>
    intro s
    refine ⟨[], ?_⟩
    show Performs r [] values s [] (some (.ok (values ++ []))) s
    rw [List.append_nil]
    exact .done
  | @cons f hooks resolvers rows hf _ ih =>
    rw [resolveAll, List.mapM_cons, List.flatten_cons]
    refine (hf r values).bind fun v _ _ _ => ?_
    have hrest : RunsAs r (rows.flatten ++ []) (values ++ [v])
        (resolveAll resolvers r >>= fun args => pure (v :: args) : Attempt σ Args)
        (values ++ ·) := by
      refine (ih (values ++ [v])).bind fun args _ _ _ => ?_
      rw [List.append_assoc]
      exact RunsAs.pure (v :: args) (values ++ ·)
    rwa [List.append_nil] at hrest

/-- **A bean** calls the hooks of its fields and is assembled. -/
theorem follows_assembled {b : Bean σ} {fields : List (Resolver σ)}
    {rows : List (List (Hook σ))} (h : List.Forall₂ Follows fields rows)
    (hall : fields.length = b.fields.length) :
    Follows (assembled b fields) (rows.flatten ++ [.assemble b]) := by
  intro r values
  refine (runsAs_resolveAll h r values).bind fun args s t hargs => ?_
  have hlength := (run_resolveAll_eq_ok_iff.mp hargs).length_eq.trans hall
  intro u
  refine ⟨[.assemble b], .of_ends ?_⟩
  show Hook.Ends r _ _ u (Option.map _ (((b.assemble r args).run.bind _).run u).1)
    (((b.assemble r args).run.bind _).run u).2
  rw [run_assembly]
  rcases hrun : (b.assemble r args).run.run u with ⟨_ | ⟨fault | e⟩ | v, t⟩
  · exact .assemble hlength hrun
  · exact .assemble hlength hrun
  · exact .assemble hlength hrun
  · exact .assemble hlength hrun

/-! ### What is scheduled -/

namespace Wiring

/-- The advices that are registered for a parameter, by order and registration. -/
def Advises (l : List (Registration σ)) (p : Param σ) (advices : List (Advice σ)) : Prop :=
  IsOrdered Advice.order ((l.flatMap Registration.advices).filter fun a => a.supports p) advices

/-- **The hooks of parameters**, a row for each, as they are fixed when the parameters are bound
from left to right: around the resolver that the first supporting factory makes, or around the rows
of the fields of a bean and its assembly, stand the advices that support the parameter. -/
inductive Schedules (l : List (Registration σ)) : Nat → List (Param σ) → σ →
    List (List (Hook σ)) → σ → Prop
  | nil {index : Nat} {app : σ} : Schedules l index [] app [] app
  | plain {index : Nat} {p : Param σ} {rest : List (Param σ)} {app mid app' : σ} {f : Factory σ}
    {resolver : Resolver σ} {advices : List (Advice σ)} {rows : List (List (Hook σ))}
    (simple : ∀ b, p.type ≠ .bean b)
    (first : IsFirst Factory.order (l.flatMap Registration.factories)
      (fun f => f.supports (placed index p)) f)
    (create : f.create (placed index p) (ofList l).codecs app = (.ok resolver, mid))
    (advised : Advises l (placed index p) advices)
    (others : Schedules l (index + 1) rest mid rows app') :
    Schedules l index (p :: rest) app (Hook.around advices [.resolve resolver] :: rows) app'
  | bean {index : Nat} {p : Param σ} {rest : List (Param σ)} {app mid app' : σ} {b : Bean σ}
    {advices : List (Advice σ)} {inner rows : List (List (Hook σ))} (type : p.type = .bean b)
    (fields : Schedules l 0 b.fields app inner mid)
    (advised : Advises l (placed index p) advices)
    (others : Schedules l (index + 1) rest mid rows app') :
    Schedules l index (p :: rest) app
      (Hook.around advices (inner.flatten ++ [.assemble b]) :: rows) app'

theorem Schedules.length_eq {l : List (Registration σ)} {index : Nat} {ps : List (Param σ)}
    {rows : List (List (Hook σ))} {app app' : σ} (h : Schedules l index ps app rows app') :
    rows.length = ps.length := by
  induction h with
  | nil => rfl
  | plain _ _ _ _ _ ih => exact congrArg (· + 1) ih
  | bean _ _ _ _ _ ih => exact congrArg (· + 1) ih

/-- **The advices around a parameter** are those that are registered for it, in order. -/
theorem advises_filter (l : List (Registration σ)) (p : Param σ) :
    Advises l p ((ofList l).advices.filter fun a => a.supports p) := by
  rw [ofList_eq]
  show IsOrdered _ _ ((byOrder _ _).filter _)
  rw [filter_byOrder]
  exact isOrdered_byOrder _ _

variable {l : List (Registration σ)} {handler : String} {index : Nat} {p : Param σ}
  {f : Resolver σ} {app mid app' : σ}

/-- A row of hooks is scheduled for a parameter, and its resolver does what they do. -/
def SchedulesFor (l : List (Registration σ)) (index : Nat) (p : Param σ) (app : σ) (f : Resolver σ)
    (mid : σ) : Prop :=
  ∃ hooks, Follows f hooks ∧ ∀ {rest rows app'}, Schedules l (index + 1) rest mid rows app' →
    Schedules l index (p :: rest) app (hooks :: rows) app'

theorem exists_of_run_bindPlain
    (h : ((ofList l).bindPlain handler p).run.run app = (.ok f, mid)) :
    ∃ factory, IsFirst Factory.order (l.flatMap Registration.factories)
        (fun f => f.supports p) factory ∧
      factory.create p (ofList l).codecs app = (.ok f, mid) := by
  rcases bindPlain_cases l handler p with ⟨factory, hfirst, hbind⟩ | ⟨-, hbind⟩
  · rw [hbind] at h
    exact ⟨factory, hfirst, h⟩
  · rw [hbind] at h
    cases h

theorem schedulesFor_plain (simple : ∀ b, p.type ≠ .bean b)
    (h : ((ofList l).bindPlain handler (placed index p) >>= fun f =>
      pure ((ofList l).advise (placed index p) f) : Binder σ (Resolver σ)).run.run app =
        (.ok f, mid)) : SchedulesFor l index p app f mid := by
  obtain ⟨resolver, mid, hplain, h⟩ := Binder.exists_of_run_bind h
  cases h
  obtain ⟨factory, hfirst, hcreate⟩ := exists_of_run_bindPlain hplain
  exact ⟨_, (follows_resolve resolver).advised _,
    .plain simple hfirst hcreate (advises_filter l (placed index p))⟩

mutual

theorem schedulesFor_bindAs (l : List (Registration σ)) (handler : String) (index : Nat)
    (p : Param σ) : ∀ (type : ParamType σ), p.type = type → ∀ {app f mid},
      ((ofList l).bindAs handler index p type).run.run app = (.ok f, mid) →
        SchedulesFor l index p app f mid
  | .bean b, htype, app, f, mid, h => by
    rw [bindAs] at h
    obtain ⟨fields, mid, hfields, h⟩ := Binder.exists_of_run_bind h
    cases h
    obtain ⟨rows, hrows, hfollow⟩ := schedules_bindBean l handler b hfields
    have hlength := hfollow.length_eq.trans hrows.length_eq
    exact ⟨_, (follows_assembled hfollow hlength).advised _,
      .bean htype hrows (advises_filter l (placed index p))⟩
  | .scalar _, htype, app, f, mid, h | .option _, htype, app, f, mid, h
  | .list _, htype, app, f, mid, h | .bytes, htype, app, f, mid, h
  | .entity _, htype, app, f, mid, h | .file, htype, app, f, mid, h
  | .files, htype, app, f, mid, h | .request, htype, app, f, mid, h
  | .response, htype, app, f, mid, h => schedulesFor_plain (htype ▸ nofun) h

theorem schedules_bindBean (l : List (Registration σ)) (handler : String) :
    ∀ (b : Bean σ) {app fields mid},
      ((ofList l).bindBean handler b).run.run app = (.ok fields, mid) →
        ∃ rows, Schedules l 0 b.fields app rows mid ∧ List.Forall₂ Follows fields rows
  | ⟨_, fields, _⟩, _, _, _, h => by
    rw [bindBean] at h
    exact schedules_bindFields l handler 0 fields h

theorem schedules_bindFields (l : List (Registration σ)) (handler : String) (index : Nat) :
    ∀ (ps : List (Param σ)) {app resolvers mid},
      ((ofList l).bindFields handler index ps).run.run app = (.ok resolvers, mid) →
        ∃ rows, Schedules l index ps app rows mid ∧ List.Forall₂ Follows resolvers rows
  | [], app, resolvers, mid, h => by
    rw [bindFields] at h
    cases h
    exact ⟨[], .nil, .nil⟩
  | p :: rest, app, resolvers, mid, h => by
    rw [bindFields] at h
    obtain ⟨f, mid, hf, h⟩ := Binder.exists_of_run_bind h
    obtain ⟨others, app', hothers, h⟩ := Binder.exists_of_run_bind h
    cases h
    obtain ⟨hooks, hfollows, hschedule⟩ := schedulesFor_bindParam l handler index p hf
    obtain ⟨rows, hrows, hfollow⟩ := schedules_bindFields l handler (index + 1) rest hothers
    exact ⟨hooks :: rows, hschedule hrows, .cons hfollows hfollow⟩

theorem schedulesFor_bindParam (l : List (Registration σ)) (handler : String) (index : Nat) :
    ∀ (p : Param σ) {app f mid},
      ((ofList l).bindParam handler index p).run.run app = (.ok f, mid) →
        SchedulesFor l index p app f mid
  | ⟨i, name, source, type, required, default⟩, _, _, _, h => by
    rw [bindParam] at h
    exact schedulesFor_bindAs l handler index _ type rfl h

end

/-! ### The arguments of a handler -/

/-- What is left of a request for a handler whose arguments are found. -/
def answered (h : Handler σ) (b : Bound σ) (r : Request) (args : Args) : Attempt σ Unit :=
  h.invoke r args >>= fun reply => b.reply reply r >>= fun payload =>
    ExceptT.lift (Dispatcher.deliver payload)

theorem performs_take {resolvers : List (Resolver σ)} {rows : List (List (Hook σ))}
    (hfollow : List.Forall₂ Follows resolvers rows) {r : Request} {s t : Scene σ} {args : Args}
    (hargs : (resolveAll resolvers r).run.run s = (some (.ok args), t)) (i : Nat) :
    ∃ u, Performs r (rows.take i).flatten [] s (rows.take i).flatten
      (some (.ok (args.take i))) u := by
  obtain ⟨u, hfront⟩ := (run_resolveAll_eq_ok_iff.mp hargs).take i
  obtain ⟨made, hmade⟩ := runsAs_resolveAll (List.forall₂_take i hfollow) r [] s
  rw [run_resolveAll_of_yields hfront] at hmade
  have hmade : Performs r (rows.take i).flatten [] s made (some (.ok (args.take i))) u := hmade
  obtain rfl := hmade.made_eq
  exact ⟨u, hmade⟩

/-- **Hooks run in one order and stop at the first failure.** Whatever is registered, a handler that
is bound has a row of hooks for each of its parameters. In any request

* there is one way to call all these hooks in a row up to the first that fails, and the arguments
  are found or missed as this way ends; a log that the hooks keep shows the same;
* if no hook fails, each row leaves the argument of its parameter, and the handler is invoked with
  these arguments;
* if one fails or crashes, that is what the request comes to, whatever the handler would do. -/
theorem hooks_run_in_order {h : Handler σ} {b : Bound σ}
    (hbind : ((ofList l).bind h).run.run app = (.ok b, app')) :
    ∃ rows mid, Schedules l 0 h.params app rows mid ∧ rows.length = h.params.length ∧
      ∀ r s, ∃ made x t, made <+: rows.flatten ∧
        (∀ made' x' t', Performs r rows.flatten [] s made' x' t' ↔
          made' = made ∧ x' = x ∧ t' = t) ∧
        (resolveAll b.args r).run.run s = (x, t) ∧
        (∀ (τ : Type) (log : Scene σ → List τ) (label : Hook σ → τ),
          (∀ hook ∈ rows.flatten, hook.Logs r log label) → log t = log s ++ made.map label) ∧
        (∀ args, x = some (.ok args) → made = rows.flatten ∧ args.length = h.params.length ∧
          (∀ i, ∃ u, Performs r (rows.take i).flatten [] s (rows.take i).flatten
            (some (.ok (args.take i))) u) ∧
          ∀ k, (Dispatcher.call r k b).run.run s = (answered k b r args).run.run t) ∧
        ∀ e : Option Failure, x = e.map .error →
          ∀ k, (Dispatcher.call r k b).run.run s = (e.map .error, t) := by
  obtain ⟨mid, hargs, -⟩ := exists_of_bind hbind
  obtain ⟨rows, hrows, hfollow⟩ := schedules_bindFields l h.render 0 h.params hargs
  refine ⟨rows, mid, hrows, hrows.length_eq, fun r s => ?_⟩
  obtain ⟨made, hmade⟩ := runsAs_resolveAll hfollow r [] s
  rcases hrun : (resolveAll b.args r).run.run s with ⟨x, t⟩
  have hid : x.map (Except.map ([] ++ ·)) = x := by
    match x with
    | some (.ok args) => rfl
    | some (.error e) => rfl
    | none => rfl
  rw [hrun, hid] at hmade
  refine ⟨made, x, t, hmade.isPrefix, fun made' x' t' => ⟨fun hmade' => ?_, ?_⟩, rfl,
    fun τ log label => hmade.log_eq, fun args hx => ?_, fun e hx k => ?_⟩
  · exact hmade.unique hmade'
  · rintro ⟨rfl, rfl, rfl⟩
    exact hmade
  · subst hx
    have hlength := (run_resolveAll_eq_ok_iff.mp hrun).length_eq
    refine ⟨hmade.made_eq, ?_, performs_take hfollow hrun, fun k => ?_⟩
    · rw [hlength, hfollow.length_eq, hrows.length_eq]
    · exact Attempt.run_bind_of_ok hrun
  · subst hx
    cases e with
    | none => exact Attempt.run_bind_of_none hrun
    | some e => exact Attempt.run_bind_of_error hrun

/-- The hooks of two parameters, a page and a listing: in a request for a page all are called, and
in a request without one the first that finds none is the last. -/
theorem listing_hooks_are_called :
    ∃ reply, (paged.bind (silent [.of "page" .query (.scalar (.whole .u32)),
          .of "listing" .bean (.bean listing)])).run.run () =
        (.ok ⟨[pageResolver, listingResolver], reply⟩, ()) ∧
      ∃ rows : List (List (Hook Unit)), rows.length = 2 ∧ ∀ s,
        Performs seventhPage rows.flatten [] s rows.flatten
          (some (.ok [.scalar (.whole .u32 6), seventhListing])) s ∧
        ∀ k, (Dispatcher.call ⟨.get, "/", none, 1, ⟨[]⟩, []⟩ k
            ⟨[pageResolver, listingResolver], reply⟩).run.run s =
          (some (.error (.badRequest "missing required value: page")), s) := by
  obtain ⟨reply, hbind⟩ : ∃ reply, (paged.bind (silent [.of "page" .query (.scalar (.whole .u32)),
      .of "listing" .bean (.bean listing)])).run.run () =
        (.ok ⟨[pageResolver, listingResolver], reply⟩, ()) := by
    rw [paged_eq]
    exact ⟨_, rfl⟩
  obtain ⟨rows, mid, -, hlength, hrows⟩ := hooks_run_in_order hbind
  refine ⟨reply, hbind, rows, hlength, fun s => ⟨?_, fun k => ?_⟩⟩
  · obtain ⟨made, x, t, -, hperforms, hrun, -, hok, -⟩ := hrows seventhPage s
    have hlisting : (listingResolver seventhPage).run.run s = (some (.ok seventhListing), s) := by
      rw [listingResolver, run_advised_nil]
      exact run_assembled_of_assembles (.assembled (.cons (run_pagingResolver s) .nil) rfl)
    have hyields : Yields seventhPage [pageResolver, listingResolver] s
        [.scalar (.whole .u32 6), seventhListing] s :=
      .cons (run_pageResolver s) (.cons hlisting .nil)
    rw [run_resolveAll_of_yields hyields] at hrun
    cases hrun
    obtain ⟨rfl, -⟩ := hok _ rfl
    exact (hperforms _ _ _).mpr ⟨rfl, rfl, rfl⟩
  · obtain ⟨made, x, t, -, -, hrun, -, -, hfails⟩ := hrows ⟨.get, "/", none, 1, ⟨[]⟩, []⟩ s
    have hstop : StopsAt ⟨.get, "/", none, 1, ⟨[]⟩, []⟩ [pageResolver, listingResolver] 0 s
        (some (.badRequest "missing required value: page")) s :=
      ⟨pageResolver, [], s, rfl, .nil, rfl⟩
    rw [run_resolveAll_of_stopsAt hstop] at hrun
    cases hrun
    exact hfails _ rfl k

end Wiring

end HttpDispatch
