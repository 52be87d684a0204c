import HttpDispatch.Pipeline.Setup
import HttpDispatch.Proofs.Binding.Soundness
import HttpDispatch.Proofs.Pipeline.Filters

/-!
# What is registered decides

A dispatcher keeps seven lists of what is registered: factories, advices and codecs for arguments
and replies, filters and error handlers. All of them are in the same order, by ascending order and
then by place, and what comes first decides: the first factory that supports a parameter or a
handler makes its resolver, and the first error handler that does not decline a failure deals with
it. The default error handler is behind all others, those of the last order included, and deals with
what the others decline.

* `Provision.settings?`, `Provision.filters` and the like: what is provided by one thing;
* `Dispatcher.ofList_eq`: the dispatcher of all that is provided, list by list;
* `Wiring.Collects`, `Wiring.Chooses`: the lists of a wiring, and which factories make resolvers;
* `Declined`, `Settled`: error handlers that decline a failure, and that do not;
* `Dispatcher.FallsBack`: who deals with failures;
* `registration_decides`: all of this for every dispatcher.
-/

namespace HttpDispatch

variable {σ : Type}

/-! ### What is provided -/

namespace Provision

/-- The settings that are provided. -/
def settings? : Provision σ → Option DispatcherSettings
  | .settings s => some s
  | _ => none

/-- The registrations of the wiring that is provided. -/
def registered? : Provision σ → Option (List (Registration σ))
  | .wiring registered => some registered
  | _ => none

/-- The filters that are provided. -/
def filters : Provision σ → List (Filter σ)
  | .filter f => [f]
  | _ => []

/-- The error handlers that are provided. -/
def errorHandlers : Provision σ → List (ErrorHandler σ)
  | .errorHandler h => [h]
  | _ => []

/-- The last settings. -/
def lastSettings (l : List (Provision σ)) : DispatcherSettings :=
  (l.filterMap settings?).getLastD {}

/-- The registrations of the last wiring, or what is built in. -/
def lastRegistered (l : List (Provision σ)) : List (Registration σ) :=
  (l.filterMap registered?).getLastD
    [.defaults, .formatParam (lastSettings l).formatParameter]

end Provision

namespace Setup

theorem enter_eq (s : Setup σ) (x : Provision σ) :
    s.enter x = ⟨x.settings?.getD s.settings, (x.registered?.map .ofList).or s.wiring?,
      s.filters ++ x.filters, s.errorHandlers ++ x.errorHandlers⟩ := by
  cases x <;> simp [enter, Provision.settings?, Provision.registered?, Provision.filters,
    Provision.errorHandlers]

theorem foldl_enter (l : List (Provision σ)) (s : Setup σ) :
    l.foldl enter s = ⟨(l.filterMap Provision.settings?).getLastD s.settings,
      ((l.filterMap Provision.registered?).getLast?.map .ofList).or s.wiring?,
      s.filters ++ l.flatMap Provision.filters,
      s.errorHandlers ++ l.flatMap Provision.errorHandlers⟩ := by
  induction l generalizing s with
  | nil => simp
  | cons x l ih =>
    have hsettings : (l.filterMap Provision.settings?).getLastD (x.settings?.getD s.settings) =
        ((x :: l).filterMap Provision.settings?).getLastD s.settings := by
      cases hx : x.settings? <;>
        simp only [List.filterMap_cons, hx, Option.getD, List.getLastD_cons]
    have hwiring : ((l.filterMap Provision.registered?).getLast?.map Wiring.ofList).or
        ((x.registered?.map .ofList).or s.wiring?) =
        (((x :: l).filterMap Provision.registered?).getLast?.map .ofList).or s.wiring? := by
      cases hx : x.registered? with
      | none => simp [hx]
      | some registered =>
        rw [List.filterMap_cons_some hx, List.getLast?_cons]
        cases (l.filterMap Provision.registered?).getLast? <;> rfl
    rw [List.foldl_cons, ih, enter_eq]
    simp only [hsettings, hwiring, List.flatMap_cons, List.append_assoc]

end Setup

theorem Provision.ofList_lastRegistered (l : List (Provision σ)) :
    Wiring.ofList (lastRegistered l) = ((l.filterMap registered?).getLast?.map .ofList).getD
      (.default (lastSettings l).formatParameter) := by
  rw [lastRegistered, List.getLastD_eq_getLast?]
  cases (l.filterMap registered?).getLast? <;> rfl

/-- **The dispatcher of all that is provided**: the last settings and the last wiring, the filters
and the error handlers in order, and the default error handler among these. -/
theorem Dispatcher.ofList_eq (l : List (Provision σ)) : ofList l =
    ⟨[], .ofList (Provision.lastRegistered l),
      byOrder Filter.order (l.flatMap Provision.filters),
      byOrder ErrorHandler.order (l.flatMap Provision.errorHandlers ++
        [defaultErrorHandler (Provision.lastSettings l).includeErrorCauses])⟩ := by
  rw [ofList, Setup.foldl_enter, Provision.ofList_lastRegistered]
  simp only [Setup.dispatcher, Setup.empty, Option.or_none, List.nil_append]
  rfl

/-! ### Factories -/

namespace Wiring

/-- **The lists of a wiring** have what is registered, in order. -/
structure Collects (registered : List (Registration σ)) (w : Wiring σ) : Prop where
  factories : IsOrdered Factory.order (registered.flatMap Registration.factories)
    w.factories
  advices : IsOrdered Advice.order (registered.flatMap Registration.advices) w.advices
  replyFactories : IsOrdered ReplyFactory.order
    (registered.flatMap Registration.replyFactories) w.replyFactories
  replyAdvices : IsOrdered ReplyAdvice.order
    (registered.flatMap Registration.replyAdvices) w.replyAdvices
  codecs : IsOrdered Codec.order (registered.flatMap Registration.codecs) w.codecs.list

theorem collects_ofList (registered : List (Registration σ)) :
    (ofList registered).Collects registered := by
  rw [ofList_eq]
  exact ⟨isOrdered_byOrder _ _, isOrdered_byOrder _ _, isOrdered_byOrder _ _,
    isOrdered_byOrder _ _, isOrdered_byOrder _ _⟩

/-- **Which factory makes a resolver**: the first of those that support the parameter or the handler
and are registered. There is none only if none of them does. A bean needs no factory, its fields are
parameters of their own. -/
structure Chooses (registered : List (Registration σ)) (w : Wiring σ) : Prop where
  param : ∀ (handler : String) (index : Nat) (p : Param σ), (∀ b, p.type ≠ .bean b) →
    (∃ f, IsFirst Factory.order (registered.flatMap Registration.factories)
        (fun f => f.supports (placed index p)) f ∧
      w.bindParam handler index p = (ExceptT.mk (f.create (placed index p) w.codecs) >>=
        fun inner => pure (w.advise (placed index p) inner) : Binder σ (Resolver σ))) ∨
    (∀ f ∈ registered.flatMap Registration.factories, f.supports (placed index p) = false) ∧
      w.bindParam handler index p = throw (.noResolver handler index p.name)
  reply : ∀ h : Handler σ,
    (∃ f, IsFirst ReplyFactory.order (registered.flatMap Registration.replyFactories)
        (fun f => f.supports h) f ∧
      w.bindReply h = (ExceptT.mk (f.create h w.codecs) >>= fun inner =>
        pure (advisedReply (w.replyAdvices.filter fun a => a.supports h) inner) :
          Binder σ (ReplyResolver σ))) ∨
    (∀ f ∈ registered.flatMap Registration.replyFactories, f.supports h = false) ∧
      w.bindReply h = throw (.noReplyResolver h.render)

theorem chooses_ofList (registered : List (Registration σ)) :
    (ofList registered).Chooses registered where
  param handler index p hp := by
    rw [bindParam_of_plain hp]
    rcases bindPlain_cases registered handler (placed index p) with
      ⟨f, hfirst, hbind⟩ | ⟨hnone, hbind⟩
    · rw [hbind]
      exact .inl ⟨f, hfirst, rfl⟩
    · rw [hbind]
      exact .inr ⟨hnone, rfl⟩
  reply := bindReply_cases registered

end Wiring

/-! ### Error handlers -/

section Handlers

variable (r : Request) (f : Failure)

/-- **Error handlers decline a failure**, each asked behind the one before. -/
inductive Declined : List (ErrorHandler σ) → Scene (Hub σ) → Scene (Hub σ) → Prop
  | nil {s : Scene (Hub σ)} : Declined [] s s
  | cons {h : ErrorHandler σ} {rest : List (ErrorHandler σ)} {s t u : Scene (Hub σ)}
    (asked : (h.handle r f).inHub.run s = (some false, t)) (others : Declined rest t u) :
    Declined (h :: rest) s u

/-- **An error handler settles a failure** when those before it have declined: it deals with it, or
it crashes. Those behind it are not asked. -/
inductive Settled : List (ErrorHandler σ) → Scene (Hub σ) → Option Unit × Scene (Hub σ) → Prop
  | handled {h : ErrorHandler σ} {rest : List (ErrorHandler σ)} {s t : Scene (Hub σ)}
    (asked : (h.handle r f).inHub.run s = (some true, t)) : Settled (h :: rest) s (some (), t)
  | crashed {h : ErrorHandler σ} {rest : List (ErrorHandler σ)} {s t : Scene (Hub σ)}
    (asked : (h.handle r f).inHub.run s = (none, t)) : Settled (h :: rest) s (none, t)
  | declined {h : ErrorHandler σ} {rest : List (ErrorHandler σ)} {s t : Scene (Hub σ)}
    {x : Option Unit × Scene (Hub σ)} (asked : (h.handle r f).inHub.run s = (some false, t))
    (others : Settled rest t x) : Settled (h :: rest) s x

variable {r f} {users : List (ErrorHandler σ)} {s t : Scene (Hub σ)}
  {x : Option Unit × Scene (Hub σ)}

theorem declined_or_settled (users : List (ErrorHandler σ)) (s : Scene (Hub σ)) :
    (∃ t, Declined r f users s t) ∨ ∃ x, Settled r f users s x := by
  induction users generalizing s with
  | nil => exact .inl ⟨s, .nil⟩
  | cons h rest ih =>
    rcases hrun : (h.handle r f).inHub.run s with ⟨_ | answer, t⟩
    · exact .inr ⟨_, .crashed hrun⟩
    · cases answer with
      | true => exact .inr ⟨_, .handled hrun⟩
      | false =>
        rcases ih t with ⟨u, hrest⟩ | ⟨x, hrest⟩
        · exact .inl ⟨u, .cons hrun hrest⟩
        · exact .inr ⟨x, .declined hrun hrest⟩

theorem Declined.not_settled (h : Declined r f users s t) : ¬ Settled r f users s x := by
  induction h with
  | nil => exact fun k => by cases k
  | cons asked _ ih =>
    intro k
    -- a handler has one answer in a scene, so the next one is asked in the same scene
    cases k with
    | handled asked' => rw [asked] at asked'; cases asked'
    | crashed asked' => rw [asked] at asked'; cases asked'
    | declined asked' others =>
      rw [asked] at asked'
      cases asked'
      exact ih others

namespace Dispatcher

theorem run_rescue_of_settled (h : Settled r f users s x) (others : List (ErrorHandler σ)) :
    (rescue r f (users ++ others)).inHub.run s = x := by
  induction h with
  | handled asked =>
    rw [List.cons_append, rescue_cons, Act.run_bind_of_some asked]
    rfl
  | crashed asked =>
    rw [List.cons_append, rescue_cons, Act.run_bind_of_none asked]
  | declined asked _ ih =>
    rw [List.cons_append, rescue_cons, Act.run_bind_of_some asked]
    exact ih

theorem run_rescue_of_declined (h : Declined r f users s t) (others : List (ErrorHandler σ)) :
    (rescue r f (users ++ others)).inHub.run s = (rescue r f others).inHub.run t := by
  induction h with
  | nil => rfl
  | cons asked _ ih =>
    rw [List.cons_append, rescue_cons, Act.run_bind_of_some asked]
    exact ih

/-- **Who deals with a failure**: the first of the given error handlers that does not decline it,
and the default one exactly if all of them decline. -/
structure FallsBack (d : Dispatcher σ) (users : List (ErrorHandler σ)) (withCauses : Bool)
    (r : Request) (f : Failure) (s : Scene (Hub σ)) : Prop where
  settled : ∀ x, Settled r f users s x → (d.handleFailure r f).run s = x
  declined : ∀ t, Declined r f users s t → (d.handleFailure r f).run s = (some (), { t with
    response := (t.response.apply (ErrorBody.ofFailure f r.path withCauses).send).2 })
  either : (∃ t, Declined r f users s t) ↔ ¬ ∃ x, Settled r f users s x

theorem fallsBack_of_concat {d : Dispatcher σ} {withCauses : Bool}
    (h : d.errorHandlers = users ++ [defaultErrorHandler withCauses]) (r : Request) (f : Failure)
    (s : Scene (Hub σ)) : d.FallsBack users withCauses r f s where
  settled x hx := by
    rw [handleFailure, h]
    exact run_rescue_of_settled hx _
  declined t ht := by
    rw [handleFailure, h, run_rescue_of_declined ht]
    rfl
  either := by
    constructor
    · rintro ⟨t, ht⟩ ⟨x, hx⟩
      exact ht.not_settled hx
    · intro hnot
      exact (declined_or_settled users s).resolve_right hnot

end Dispatcher

end Handlers

/-! ### The whole dispatcher -/

/-- **What is registered decides**, in whatever order a dispatcher is provided with it, and whatever
routes it gets then:

* all lists of its wiring have what was registered for the wiring, by ascending order, equal orders
  as they were registered, and the first factory that supports a parameter or a handler makes the
  resolver;
* its filters are those that were provided, in the same order;
* so are its error handlers, with the default one behind them, even behind those of the last order,
  2147483647;
* a failure is dealt with by the first of these that does not decline it, and by the default one
  exactly if all the others decline. -/
theorem registration_decides (l : List (Provision σ)) (routes : List (Route σ))
    (last : ∀ h ∈ l.flatMap Provision.errorHandlers, h.order ≤ 2147483647) :
    let d := routes.foldl Dispatcher.addRoute (.ofList l)
    let withCauses := (Provision.lastSettings l).includeErrorCauses
    d.wiring.Collects (Provision.lastRegistered l) ∧
    d.wiring.Chooses (Provision.lastRegistered l) ∧
    IsOrdered Filter.order (l.flatMap Provision.filters) d.filters ∧
    ∃ users, IsOrdered ErrorHandler.order (l.flatMap Provision.errorHandlers) users ∧
      d.errorHandlers = users ++ [defaultErrorHandler withCauses] ∧
      ∀ r f s, d.FallsBack users withCauses r f s := by
  rw [Parts.foldl_addRoute, Dispatcher.ofList_eq, byOrder_concat last]
  exact ⟨Wiring.collects_ofList _, Wiring.chooses_ofList _, isOrdered_byOrder _ _, _,
    isOrdered_byOrder _ _, rfl, Dispatcher.fallsBack_of_concat rfl⟩

/-- An error handler that deals with failures of one status, and notes that it was asked. -/
def dealsWith (order : Int) (status : Status) : ErrorHandler (List Int) where
  order := order
  handle _ f := do
    Act.tell (· ++ [order])
    return f.answer == status

/-- Two such handlers, the one of the last order provided first, with a wiring and settings between
them. -/
def guarded : List (Provision (List Int)) :=
  [.errorHandler (dealsWith lastOrder .notFound), .wiring [.formatParam none, .defaults],
    .settings { includeErrorCauses := true }, .errorHandler (dealsWith firstOrder .badRequest)]

/-- A scene where nothing has happened. -/
def untouched : Scene (Hub (List Int)) :=
  Exchange.scene { id := 0, request := Dispatcher.front } 0 .closed ⟨[], []⟩

/-- The handler of the last order deals with its failures before the default one, which deals with
those of neither. -/
theorem guarded_falls_back :
    let after f := (((Dispatcher.ofList guarded).handleFailure Dispatcher.front f).run untouched).2
    (after (.badRequest "bad")).notes.app.app = [-2147483648] ∧
    (after (.notFound "gone")).notes.app.app = [-2147483648, 2147483647] ∧
    (after (.notFound "gone")).response = untouched.response ∧
    (after (.internal "broken")).notes.app.app = [-2147483648, 2147483647] ∧
    (after (.internal "broken")).response.status = .internalServerError := by
  have hlast : ∀ h ∈ guarded.flatMap Provision.errorHandlers, h.order ≤ 2147483647 := by
    simp [guarded, Provision.errorHandlers, dealsWith, firstOrder, lastOrder]
  obtain ⟨-, -, -, users, hordered, -, hback⟩ := registration_decides guarded [] hlast
  obtain rfl : users = [dealsWith firstOrder .badRequest, dealsWith lastOrder .notFound] :=
    hordered.unique ⟨[(_, 1), (_, 0)], .swap .., rfl, by
      simp [dealsWith, firstOrder, lastOrder]⟩
  have hbad := (hback Dispatcher.front (.badRequest "bad") untouched).settled _ (.handled rfl)
  have hgone := (hback Dispatcher.front (.notFound "gone") untouched).settled _
    (.declined rfl (.handled rfl))
  have hbroken := (hback Dispatcher.front (.internal "broken") untouched).declined _
    (.cons rfl (.cons rfl .nil))
  intro after
  have hbad : after (.badRequest "bad") = _ := congrArg Prod.snd hbad
  have hgone : after (.notFound "gone") = _ := congrArg Prod.snd hgone
  have hbroken : after (.internal "broken") = _ := congrArg Prod.snd hbroken
  rw [hbad, hgone, hbroken]
  exact ⟨rfl, rfl, rfl, rfl, rfl⟩

end HttpDispatch
