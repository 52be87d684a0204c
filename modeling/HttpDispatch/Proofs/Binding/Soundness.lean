import HttpDispatch.Proofs.Binding.Order
import HttpDispatch.Proofs.Binding.Outcome
import HttpDispatch.Proofs.Work.Running

/-!
# The soundness of resolution

With the built-in factories and without advices, a parameter that can be bound is resolved to an
argument of its type, to null where nothing is needed and nothing is there, or to a failure that is
the client's or was raised by the assembly of a bean. A bean is resolved field by field; what stops
a field stops the bean.

* `Yields`, `StopsAt`: resolvers in a row, which find their values or stop at one of them;
* `Assembles`: what becomes of a bean from its fields;
* `Wiring.IsBuiltIn`, `Wiring.isBuiltIn_ofList`: nothing but the built-in factories;
* `ParamType.Typed`: zeros and beans are of the type that they are declared with;
* `ParamOf.ResolvedBy`: a resolver that gives a parameter nothing but one of its outcomes;
* `ParamOf.resolvedBy_assembled`: a bean, from its fields;
* `Wiring.bindParam_sound`: every parameter.
-/

namespace HttpDispatch

variable {σ α β : Type}

@[simp] theorem run_advised_nil (inner : Resolver σ) (r : Request) (s : Scene σ) :
    (advised [] inner r).run.run s = (inner r).run.run s := by
  show (inner r >>= pure : Attempt σ Arg).run.run s = _
  rcases hrun : (inner r).run.run s with ⟨_ | e | a, t⟩
  · exact Attempt.run_bind_of_none hrun
  · exact Attempt.run_bind_of_error hrun
  · exact Attempt.run_bind_of_ok hrun

/-! ### Resolvers in a row -/

/-- **Resolvers find values** one after the other, each in the scene that the one before leaves. -/
inductive Yields (r : Request) : List (Resolver σ) → Scene σ → Args → Scene σ → Prop
  | nil {s : Scene σ} : Yields r [] s [] s
  | cons {f : Resolver σ} {resolvers : List (Resolver σ)} {s t u : Scene σ} {a : Arg} {args : Args}
    (value : (f r).run.run s = (some (.ok a), t)) (others : Yields r resolvers t args u) :
    Yields r (f :: resolvers) s (a :: args) u

/-- **One of the resolvers stops**, by a failure or, without one, by a crash, after those in front
of it have found their values. -/
def StopsAt (r : Request) (resolvers : List (Resolver σ)) (i : Nat) (s : Scene σ)
    (e : Option Failure) (t : Scene σ) : Prop :=
  ∃ f args mid, resolvers[i]? = some f ∧ Yields r (resolvers.take i) s args mid ∧
    (f r).run.run mid = (e.map .error, t)

section Row

variable {r : Request} {f : Resolver σ} {resolvers : List (Resolver σ)} {s t u : Scene σ} {a : Arg}
  {args : Args} {e : Option Failure} {i : Nat}

theorem Yields.length_eq (h : Yields r resolvers s args t) : args.length = resolvers.length := by
  induction h with
  | nil => rfl
  | cons _ _ ih => exact congrArg (· + 1) ih

theorem Yields.take (h : Yields r resolvers s args t) (i : Nat) :
    ∃ mid, Yields r (resolvers.take i) s (args.take i) mid := by
  induction h generalizing i with
  | nil => exact ⟨_, by rw [List.take_nil, List.take_nil]; exact .nil⟩
  | cons value _ ih =>
    cases i with
    | zero => exact ⟨_, .nil⟩
    | succ i =>
      obtain ⟨mid, hmid⟩ := ih i
      exact ⟨mid, .cons value hmid⟩

theorem StopsAt.cons (value : (f r).run.run s = (some (.ok a), t))
    (h : StopsAt r resolvers i t e u) : StopsAt r (f :: resolvers) (i + 1) s e u := by
  obtain ⟨g, args, mid, hi, hfront, hstop⟩ := h
  exact ⟨g, a :: args, mid, hi, .cons value hfront, hstop⟩

theorem run_resolveAll_cons (value : (f r).run.run s = (some (.ok a), t)) :
    (resolveAll (f :: resolvers) r).run.run s =
      (resolveAll resolvers r >>= fun args => pure (a :: args) : Attempt σ Args).run.run t := by
  rw [resolveAll, List.mapM_cons, Attempt.run_bind_of_ok value]
  rfl

theorem run_resolveAll_of_yields (h : Yields r resolvers s args t) :
    (resolveAll resolvers r).run.run s = (some (.ok args), t) := by
  induction h with
  | nil => rfl
  | cons value _ ih =>
    rw [run_resolveAll_cons value, Attempt.run_bind_of_ok ih]
    rfl

theorem run_resolveAll_of_stopsAt (h : StopsAt r resolvers i s e t) :
    (resolveAll resolvers r).run.run s = (e.map .error, t) := by
  obtain ⟨g, args, mid, hi, hfront, hstop⟩ := h
  induction i generalizing resolvers s args with
  | zero =>
    cases resolvers with
    | nil => cases hi
    | cons f resolvers =>
      cases hi
      cases hfront
      rw [resolveAll, List.mapM_cons]
      cases e with
      | none => exact Attempt.run_bind_of_none hstop
      | some e => exact Attempt.run_bind_of_error hstop
  | succ i ih =>
    cases resolvers with
    | nil => cases hi
    | cons f resolvers =>
      cases hfront with
      | cons value others =>
        rw [run_resolveAll_cons value]
        have hrest := ih _ (by simpa using hi) others
        cases e with
        | none => exact Attempt.run_bind_of_none hrest
        | some e => exact Attempt.run_bind_of_error hrest

/-- **Resolvers in a row** find all their values, or one of them stops. -/
theorem yields_or_stopsAt (r : Request) (resolvers : List (Resolver σ)) (s : Scene σ) :
    (∃ args t, Yields r resolvers s args t) ∨ ∃ i e t, StopsAt r resolvers i s e t := by
  induction resolvers generalizing s with
  | nil => exact .inl ⟨[], s, .nil⟩
  | cons f resolvers ih =>
    rcases hf : (f r).run.run s with ⟨_ | e | a, t⟩
    · exact .inr ⟨0, none, t, f, [], s, rfl, .nil, hf⟩
    · exact .inr ⟨0, some e, t, f, [], s, rfl, .nil, hf⟩
    · rcases ih t with ⟨args, u, hyields⟩ | ⟨i, e, u, hstop⟩
      · exact .inl ⟨a :: args, u, .cons hf hyields⟩
      · exact .inr ⟨i + 1, e, u, hstop.cons hf⟩

theorem run_resolveAll_eq_ok_iff :
    (resolveAll resolvers r).run.run s = (some (.ok args), t) ↔ Yields r resolvers s args t := by
  refine ⟨fun h => ?_, run_resolveAll_of_yields⟩
  rcases yields_or_stopsAt r resolvers s with ⟨args', t', hyields⟩ | ⟨i, e, t', hstop⟩
  · rw [run_resolveAll_of_yields hyields] at h
    cases h
    exact hyields
  · rw [run_resolveAll_of_stopsAt hstop] at h
    cases e <;> cases h

theorem run_resolveAll_eq_stop_iff :
    (resolveAll resolvers r).run.run s = (e.map .error, t) ↔ ∃ i, StopsAt r resolvers i s e t := by
  refine ⟨fun h => ?_, fun ⟨i, hstop⟩ => run_resolveAll_of_stopsAt hstop⟩
  rcases yields_or_stopsAt r resolvers s with ⟨args', t', hyields⟩ | ⟨i, e', t', hstop⟩
  · rw [run_resolveAll_of_yields hyields] at h
    cases e <;> cases h
  · rw [run_resolveAll_of_stopsAt hstop] at h
    cases e <;> cases e' <;> cases h <;> exact ⟨i, hstop⟩

end Row

/-! ### A bean from its fields -/

/-- **What becomes of a bean** whose fields have the given resolvers: it is assembled from exactly
the values that they find. Arguments that do not fit are the fault of a bad request, other failures
of the assembly stay as they are, and what stops a field stops the bean. -/
inductive Assembles (b : Bean σ) (r : Request) (fields : List (Resolver σ)) (s : Scene σ) :
    Option (Except Failure Arg) → Scene σ → Prop
  | assembled {args : Args} {a : Arg} {mid t : Scene σ} (values : Yields r fields s args mid)
    (assembly : (b.assemble r args).run.run mid = (some (.ok a), t)) :
    Assembles b r fields s (some (.ok a)) t
  | mismatched {args : Args} {fault : ArgFault} {mid t : Scene σ}
    (values : Yields r fields s args mid)
    (assembly : (b.assemble r args).run.run mid = (some (.error (.mismatch fault)), t)) :
    Assembles b r fields s
      (some (.error (.badRequest s!"cannot assemble {b.name}: {fault.message}"))) t
  | raised {args : Args} {e : Failure} {mid t : Scene σ} (values : Yields r fields s args mid)
    (assembly : (b.assemble r args).run.run mid = (some (.error (.failed e)), t)) :
    Assembles b r fields s (some (.error e)) t
  | crashed {args : Args} {mid t : Scene σ} (values : Yields r fields s args mid)
    (assembly : (b.assemble r args).run.run mid = (none, t)) : Assembles b r fields s none t
  | stopped {i : Nat} {e : Option Failure} {t : Scene σ} (stop : StopsAt r fields i s e t) :
    Assembles b r fields s (e.map .error) t

theorem run_assembly (b : Bean σ) (r : Request) (args : Args) (s : Scene σ) :
    ((b.assemble r args).run.bind fun result =>
      .done (result.mapError (assemblyFailure b.name))).run s =
      (((b.assemble r args).run.run s).1.map (Except.mapError (assemblyFailure b.name)),
        ((b.assemble r args).run.run s).2) :=
  Act.run_bind_pure _ _ s

theorem run_assembled_of_yields {b : Bean σ} {r : Request} {fields : List (Resolver σ)}
    {s mid : Scene σ} {args : Args} (h : Yields r fields s args mid) :
    (assembled b fields r).run.run s =
      (((b.assemble r args).run.run mid).1.map (Except.mapError (assemblyFailure b.name)),
        ((b.assemble r args).run.run mid).2) := by
  rw [assembled, Attempt.run_bind_of_ok (run_resolveAll_of_yields h)]
  exact run_assembly b r args mid

theorem run_assembled_of_stopsAt {b : Bean σ} {r : Request} {fields : List (Resolver σ)}
    {s t : Scene σ} {i : Nat} {e : Option Failure} (h : StopsAt r fields i s e t) :
    (assembled b fields r).run.run s = (e.map .error, t) := by
  have hall := run_resolveAll_of_stopsAt h
  cases e with
  | none => exact Attempt.run_bind_of_none hall
  | some e => exact Attempt.run_bind_of_error hall

theorem assembles_run (b : Bean σ) (r : Request) (fields : List (Resolver σ)) (s : Scene σ) :
    Assembles b r fields s ((assembled b fields r).run.run s).1
      ((assembled b fields r).run.run s).2 := by
  rcases yields_or_stopsAt r fields s with ⟨args, mid, hvalues⟩ | ⟨i, e, t, hstop⟩
  · rw [run_assembled_of_yields hvalues]
    rcases hrun : (b.assemble r args).run.run mid with ⟨_ | ⟨fault | e⟩ | a, t⟩
    · exact .crashed hvalues hrun
    · exact .mismatched hvalues hrun
    · exact .raised hvalues hrun
    · exact .assembled hvalues hrun
  · rw [run_assembled_of_stopsAt hstop]
    exact .stopped hstop

theorem run_assembled_of_assembles {b : Bean σ} {r : Request} {fields : List (Resolver σ)}
    {s t : Scene σ} {x : Option (Except Failure Arg)} (h : Assembles b r fields s x t) :
    (assembled b fields r).run.run s = (x, t) := by
  cases h with
  | assembled values assembly => rw [run_assembled_of_yields values, assembly]; rfl
  | mismatched values assembly => rw [run_assembled_of_yields values, assembly]; rfl
  | raised values assembly => rw [run_assembled_of_yields values, assembly]; rfl
  | crashed values assembly => rw [run_assembled_of_yields values, assembly]; rfl
  | stopped stop => exact run_assembled_of_stopsAt stop

/-! ### What is wired and typed -/

/-- Neither a factory nor an advice of the application. -/
def Registration.IsNeutral : Registration σ → Prop
  | .factory _ => False
  | .advice _ => False
  | _ => True

namespace Wiring

/-- **Nothing but the built-in factories**, and no advices; any codecs. -/
structure IsBuiltIn (w : Wiring σ) : Prop where
  factories : ∀ f ∈ w.factories, f ∈ defaultFactories
  advices : w.advices = []

/-- **Whoever registers neither factories nor advices** has nothing but the built-in ones. -/
theorem isBuiltIn_ofList {l : List (Registration σ)} (h : ∀ x ∈ l, x.IsNeutral) :
    (ofList l).IsBuiltIn := by
  rw [ofList_eq]
  constructor
  · intro f hf
    obtain ⟨x, hx, hf⟩ := List.mem_flatMap.mp (List.mem_mergeSort.mp hf)
    cases x with
    | defaults => exact hf
    | factory g => exact (h _ hx).elim
    | _ => cases hf
  · have hnone : l.flatMap Registration.advices = [] := by
      refine List.flatMap_eq_nil_iff.mpr fun x hx => ?_
      cases x with
      | advice a => exact (h _ hx).elim
      | _ => rfl
    show byOrder Advice.order (l.flatMap Registration.advices) = []
    rw [hnone]
    exact List.mergeSort_nil

/-- **The built-in wiring** is in order as it is entered. -/
theorem default_eq (formatParam : Option String) :
    (Wiring.default formatParam : Wiring σ) =
      ⟨defaultFactories, [], [pinnedFactory, negotiatingFactory], [], ⟨[.json], formatParam⟩⟩ := by
  have hfactories : ((defaultFactories : List (Factory σ)).map Factory.order).Pairwise (· ≤ ·) := by
    show [firstOrder, 0, 0, 0, 0, 0, 0, 0].Pairwise (· ≤ ·)
    decide
  have hreplies : (([pinnedFactory, negotiatingFactory] : List (ReplyFactory σ)).map
      ReplyFactory.order).Pairwise (· ≤ ·) := by
    show [0, lastOrder].Pairwise (· ≤ ·)
    decide
  show Wiring.mk (byOrder _ defaultFactories) (byOrder _ []) (byOrder _ [_, _]) (byOrder _ [])
    ⟨byOrder _ [Codec.json], formatParam⟩ = _
  rw [byOrder_of_pairwise hfactories, byOrder_of_pairwise hreplies]
  simp [byOrder]

end Wiring

namespace ParamType

/-- **Zeros and beans are of the type that they are declared with**, in a parameter and in all its
fields. -/
inductive Typed : ParamType σ → Prop where
  | plain {type} (simple : ∀ b, type ≠ .bean b) (zero : type.ZeroTyped) : Typed type
  | bean {b : Bean σ}
    (assembled : ∀ r args s a, ((b.assemble r args).run.run s).1 = some (.ok a) →
      a.typeName? = some b.name)
    (fields : ∀ q ∈ b.fields, Typed q.type) : Typed (.bean b)

end ParamType

namespace ParamOf

variable {codecs : Codecs} {r : Request} {vars : Option Variables} {p : Param σ}

/-- A resolver that gives a parameter nothing but one of its outcomes. -/
def ResolvedBy (codecs : Codecs) (p : Param σ) (f : Resolver σ) : Prop :=
  ∀ r s, p.Outcome codecs r s.notes.pathVars ((f r).run.run s).1

theorem outcome_of_placed {index : Nat} {x : Option (Except Failure Arg)}
    (h : (Wiring.placed index p).Outcome codecs r vars x) : p.Outcome codecs r vars x := by
  have hblame : ∀ e, Blame codecs r (Wiring.placed index p) e → p.Blame codecs r e := by
    intro e hb
    cases hb with
    | client answer => exact .client answer
    | unread answer source type body none => exact .unread answer source type body none
    | assembly type raised => exact .assembly type raised
    | field type field blame => exact .field type field blame
  match x with
  | some (.ok a) =>
    refine h.imp id (And.imp_right fun hnull => ?_)
    exact ⟨hnull.lacks, hnull.optional, hnull.default, hnull.kind⟩
  | some (.error e) => exact hblame e h
  | none =>
    cases h with
    | assembly type crashed => exact .assembly type crashed
    | field type field crash => exact .field type field crash

/-- **The outcomes of a bean** are put together from those of its fields and of its assembly: it is
of its type when it is assembled, what stops a field stops the bean, and arguments that do not fit
are the client's fault. -/
theorem resolvedBy_assembled {b : Bean σ} {resolvers : List (Resolver σ)} (htype : p.type = .bean b)
    (htyped : ∀ r args s a, ((b.assemble r args).run.run s).1 = some (.ok a) →
      a.typeName? = some b.name)
    (hfields : ∀ f ∈ resolvers, ∃ q ∈ b.fields, ResolvedBy codecs q f) :
    ResolvedBy codecs p (assembled b resolvers) := by
  intro r s
  have hbean := assembles_run b r resolvers s
  generalize ((assembled b resolvers r).run.run s).1 = x at hbean ⊢
  generalize ((assembled b resolvers r).run.run s).2 = t at hbean
  cases hbean with
  | assembled values assembly =>
    refine .inl ?_
    rw [htype]
    exact htyped r _ _ _ (congrArg Prod.fst assembly)
  | mismatched values assembly => exact .client rfl
  | raised values assembly => exact .assembly htype (congrArg Prod.fst assembly)
  | crashed values assembly => exact .assembly htype (congrArg Prod.fst assembly)
  | @stopped i e _ stop =>
    obtain ⟨f, args, mid, hi, -, hf⟩ := stop
    obtain ⟨q, hq, hsound⟩ := hfields f (List.mem_of_getElem? hi)
    have hout := hsound r mid
    rw [hf] at hout
    cases e with
    | some e => exact .field htype hq hout
    | none => exact .field htype hq hout

end ParamOf

/-! ### What is bound -/

theorem Binder.exists_of_run_bind {x : Binder σ α} {g : α → Binder σ β} {b : β} {app app' : σ}
    (h : (x >>= g).run.run app = (.ok b, app')) :
    ∃ a mid, x.run.run app = (.ok a, mid) ∧ (g a).run.run mid = (.ok b, app') := by
  have h : ExceptT.bindCont g (x.run.run app).1 (x.run.run app).2 = (.ok b, app') := h
  rcases hx : x.run.run app with ⟨fault | a, mid⟩
  · rw [hx] at h
    cases h
  · rw [hx] at h
    exact ⟨a, mid, rfl, h⟩

namespace Wiring

open ParamOf (ResolvedBy outcome_of_placed outcome_of_mem resolvedBy_assembled)

variable {w : Wiring σ} {handler : String} {index : Nat} {p : Param σ} {f : Resolver σ}
  {app app' : σ}

theorem exists_of_bind {h : Handler σ} {b : Bound σ}
    (hbind : (w.bind h).run.run app = (.ok b, app')) :
    ∃ mid, (w.bindFields h.render 0 h.params).run.run app = (.ok b.args, mid) ∧
      (w.bindReply h).run.run mid = (.ok b.reply, app') := by
  unfold bind at hbind
  obtain ⟨args, mid, hargs, hbind⟩ := Binder.exists_of_run_bind hbind
  obtain ⟨reply, app₂, hreply, hbind⟩ := Binder.exists_of_run_bind hbind
  cases hbind
  exact ⟨mid, hargs, hreply⟩

/-- A parameter that is no bean gets the resolver that a factory makes, with the advices around. -/
theorem bindParam_of_plain (h : ∀ b, p.type ≠ .bean b) : w.bindParam handler index p =
    (w.bindPlain handler (placed index p) >>= fun f => pure (w.advise (placed index p) f) :
      Binder σ (Resolver σ)) := by
  obtain ⟨i, name, source, type, required, default⟩ := p
  cases type with
  | bean b => exact absurd rfl (h b)
  | _ => rfl

/-- **The first factory that supports a parameter** resolves it. -/
theorem resolvedBy_bindPlain (hw : w.IsBuiltIn) (hzero : p.type.ZeroTyped)
    (h : (w.bindPlain handler p).run.run app = (.ok f, app')) : ResolvedBy w.codecs p f := by
  unfold bindPlain at h
  split at h
  · next factory hfind =>
    intro r s
    have hsupports := List.find?_some hfind
    have hmem := hw.factories factory (List.mem_of_find?_eq_some hfind)
    exact outcome_of_mem hmem hsupports hzero h s
  · cases h

/-- Without advices a resolver does for a parameter what it does, wherever the parameter stands. -/
theorem resolvedBy_advise (hw : w.IsBuiltIn) (h : ResolvedBy w.codecs (placed index p) f) :
    ResolvedBy w.codecs p (w.advise (placed index p) f) := by
  intro r s
  rw [advise, hw.advices, List.filter_nil, run_advised_nil]
  exact outcome_of_placed (h r s)

/-- **Fields are resolved** if each of them is, bound by itself. -/
theorem resolvedBy_bindFields : ∀ {fields : List (Param σ)} {index : Nat}
    {resolvers : List (Resolver σ)} {app app' : σ},
    (∀ q ∈ fields, ∀ {index : Nat} {f : Resolver σ} {app app' : σ},
      (w.bindParam handler index q).run.run app = (.ok f, app') → ResolvedBy w.codecs q f) →
    (w.bindFields handler index fields).run.run app = (.ok resolvers, app') →
    ∀ f ∈ resolvers, ∃ q ∈ fields, ResolvedBy w.codecs q f
  | [], index, resolvers, app, app', hfields, h => by
    rw [bindFields] at h
    cases h
    intro f hf
    cases hf
  | p :: fields, index, resolvers, app, app', hfields, h => by
    rw [bindFields] at h
    obtain ⟨f, mid, hf, h⟩ := Binder.exists_of_run_bind h
    obtain ⟨rest, app₂, hrest, h⟩ := Binder.exists_of_run_bind h
    cases h
    intro g hg
    rcases List.mem_cons.mp hg with rfl | hg
    · exact ⟨p, List.mem_cons_self, hfields p List.mem_cons_self hf⟩
    · obtain ⟨q, hq, hres⟩ := resolvedBy_bindFields
        (fun q hq => hfields q (List.mem_cons_of_mem _ hq)) hrest g hg
      exact ⟨q, List.mem_cons_of_mem _ hq, hres⟩

/-- **Whatever is bound is resolved**, by induction on the typing of the parameter's type. -/
theorem resolvedBy_bindParam (hw : w.IsBuiltIn) {type : ParamType σ} (htyped : type.Typed) :
    ∀ {p : Param σ} {index : Nat} {f : Resolver σ} {app app' : σ}, p.type = type →
      (w.bindParam handler index p).run.run app = (.ok f, app') → ResolvedBy w.codecs p f := by
  induction htyped with
  | @plain type simple zero =>
    rintro p index f app app' rfl h
    rw [bindParam_of_plain simple] at h
    obtain ⟨inner, mid, hinner, h⟩ := Binder.exists_of_run_bind h
    cases h
    exact resolvedBy_advise hw (resolvedBy_bindPlain hw zero hinner)
  | @bean b assembled fields ih =>
    rintro ⟨i, name, source, type, required, default⟩ index f app app' rfl h
    rw [bindParam, bindAs] at h
    obtain ⟨resolvers, mid, hresolvers, h⟩ := Binder.exists_of_run_bind h
    cases h
    rw [bindBean] at hresolvers
    refine resolvedBy_advise hw (resolvedBy_assembled rfl assembled ?_)
    exact resolvedBy_bindFields (fun q hq => ih q hq rfl) hresolvers

/-- **Resolution is sound and blames only the client.** With the built-in factories, any codecs and
no advices, a parameter that can be bound is resolved, in any request, to an argument of its type or
to null where nothing is there and nothing needed, or it fails, or a bean crashes, as
`ParamOf.Outcome` says. An argument other than null is given out under the name of the parameter's
type, and an entity of a shape has the shape, all the way down. -/
theorem bindParam_sound (hw : w.IsBuiltIn) (htyped : p.type.Typed)
    (h : (w.bindParam handler index p).run.run app = (.ok f, app')) (r : Request) (s : Scene σ) :
    p.Outcome w.codecs r s.notes.pathVars ((f r).run.run s).1 ∧
      ∀ a, ((f r).run.run s).1 = some (.ok a) → a ≠ .null →
        (∀ (args : Args) (i : Nat), args[i]? = some a → args.get p.type.argName i = .ok a) ∧
        ∀ shape : Shape, p.type = .entity (.ofShape shape) → shape.Holds a := by
  have hout := resolvedBy_bindParam hw htyped rfl h r s
  refine ⟨hout, fun a ha hne => ?_⟩
  rw [ha] at hout
  rcases hout with hholds | ⟨hnull, -⟩
  · refine ⟨fun args i hi => Args.get_of_typed hholds.typeName? hi, fun shape hshape => ?_⟩
    rw [hshape] at hholds
    obtain ⟨v, hv⟩ := hholds
    exact EntityType.holds_of_decode_ofShape hv
  · exact absurd hnull hne

/-- A bean of one field, the number of a page. -/
def paging : Bean Unit where
  name := "Paging"
  fields := [.of "page" .query (.scalar (.whole .u32))]
  assemble _ args :=
    match args.get "u32" 0 with
    | .ok a => pure (.record "Paging" [("page", a)])
    | .error f => throw (.mismatch f)

theorem paging_typed : (ParamType.bean paging).Typed := by
  refine .bean (fun r args s a h => ?_) fun q hq => ?_
  · unfold paging at h
    dsimp only at h
    cases hget : args.get "u32" 0 with
    | ok v =>
      rw [hget] at h
      cases h
      rfl
    | error f =>
      rw [hget] at h
      cases h
  · cases List.mem_singleton.mp hq
    exact .plain (fun b hb => by cases hb) fun v hv => by cases hv; rfl

/-- A request for a page. -/
def seventhPage : Request := ⟨.get, "/", some "page=7", 1, ⟨[]⟩, []⟩

theorem run_resolveNamed_seventhPage (s : Scene Unit) :
    (resolveNamed .query (.scalar (.whole .u32)) ⟨"page", true, none⟩ seventhPage).run.run s =
      (some (.ok (.scalar (.whole .u32 7))), s) := by
  have hvalues : seventhPage.queryParams "page" = ["7"] := by decide +kernel
  show (Attempt.ofExcept (convertOr _ _ (Request.queryParams _ _)) : Attempt Unit Arg).run.run s = _
  rw [hvalues]
  rfl

/-- The bean is resolved to one of its type, and given out as such. -/
theorem paging_is_resolved :
    ∃ f, ((Wiring.default none).bindParam "list" 0 (.of "paging" .bean (.bean paging))).run.run () =
        (.ok f, ()) ∧
      ∀ s, ∃ a, ((f seventhPage).run.run s).1 = some (.ok a) ∧
        a.typeName? = some "Paging" ∧ Args.get [.null, a] "Paging" 1 = .ok a := by
  have hw : (Wiring.default none : Wiring Unit).IsBuiltIn :=
    isBuiltIn_ofList fun x hx => by
      simp only [List.mem_cons, List.not_mem_nil, or_false] at hx
      rcases hx with rfl | rfl <;> trivial
  let field : Resolver Unit :=
    advised [] (resolveNamed .query (.scalar (.whole .u32)) ⟨"page", true, none⟩)
  have hbind : ((Wiring.default none).bindParam "list" 0
      (.of "paging" .bean (.bean paging))).run.run () =
      (.ok (advised [] (assembled paging [field])), ()) := by
    rw [default_eq]
    rfl
  refine ⟨_, hbind, fun s => ?_⟩
  have hfield : (field seventhPage).run.run s =
      (some (.ok (.scalar (.whole .u32 7))), s) := by
    rw [run_advised_nil]
    exact run_resolveNamed_seventhPage s
  have hrun : ((advised [] (assembled paging [field]) seventhPage).run.run s).1 =
      some (.ok (.record "Paging" [("page", .scalar (.whole .u32 7))])) := by
    rw [run_advised_nil, run_assembled_of_assembles (.assembled (.cons hfield .nil) rfl)]
  refine ⟨_, hrun, rfl, ?_⟩
  exact ((bindParam_sound hw paging_typed hbind _ s).2 _ hrun (by simp)).1 _ 1 rfl

end Wiring

end HttpDispatch
