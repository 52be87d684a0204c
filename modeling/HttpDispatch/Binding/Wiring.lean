import HttpDispatch.Binding.Negotiation

/-!
# Wiring

A `Wiring` holds what an application has registered for working with arguments and replies:
factories, advices and codecs, each list by ascending order, equal orders as registered.

`Wiring.bindParam` makes the resolver of a parameter: the first supporting factory makes it, or for
a bean the resolvers of its fields and its assembly; the supporting advices act before and after.
`Wiring.bind` makes the resolvers of a whole handler from left to right, the reply's last, and stops
at the first fault.
-/

namespace HttpDispatch

variable {σ : Type}

/-- Acts before and after the resolution of the parameters that it supports. -/
structure Advice (σ : Type) where
  order : Int
  supports : Param σ → Bool
  before : Request → Attempt σ Unit
  after : Arg → Request → Attempt σ Arg

/-- Acts on the replies of the handlers that it supports. -/
structure ReplyAdvice (σ : Type) where
  order : Int
  supports : Handler σ → Bool
  before : Reply → Request → Attempt σ Reply

/-- The items by ascending order, equal orders as they are. -/
def byOrder {α : Type} (order : α → Int) (items : List α) : List α :=
  items.mergeSort fun a b => order a ≤ order b

/-- What is registered for arguments and replies. -/
structure Wiring (σ : Type) where
  factories : List (Factory σ)
  advices : List (Advice σ)
  replyFactories : List (ReplyFactory σ)
  replyAdvices : List (ReplyAdvice σ)
  codecs : Codecs

/-! ### Registration -/

/-- One thing that is registered. -/
inductive Registration (σ : Type) where
  | defaults
  | factory (f : Factory σ)
  | advice (a : Advice σ)
  | replyFactory (f : ReplyFactory σ)
  | replyAdvice (a : ReplyAdvice σ)
  | codec (c : Codec)
  | formatParam (name : Option String)

namespace Wiring

/-- Nothing registered; a format is asked for by the parameter `format`. -/
def empty : Wiring σ := ⟨[], [], [], [], ⟨[], some "format"⟩⟩

/-- Enters one thing after all others. -/
def enter (w : Wiring σ) : Registration σ → Wiring σ
  | .defaults =>
    { w with
      factories := w.factories ++ defaultFactories
      replyFactories := w.replyFactories ++ [pinnedFactory, negotiatingFactory]
      codecs := { w.codecs with list := w.codecs.list ++ [.json] } }
  | .factory f => { w with factories := w.factories ++ [f] }
  | .advice a => { w with advices := w.advices ++ [a] }
  | .replyFactory f => { w with replyFactories := w.replyFactories ++ [f] }
  | .replyAdvice a => { w with replyAdvices := w.replyAdvices ++ [a] }
  | .codec c => { w with codecs := { w.codecs with list := w.codecs.list ++ [c] } }
  | .formatParam name => { w with codecs := { w.codecs with formatParam := name } }

/-- Every list by ascending order. -/
def ordered (w : Wiring σ) : Wiring σ where
  factories := byOrder Factory.order w.factories
  advices := byOrder Advice.order w.advices
  replyFactories := byOrder ReplyFactory.order w.replyFactories
  replyAdvices := byOrder ReplyAdvice.order w.replyAdvices
  codecs := { w.codecs with list := byOrder Codec.order w.codecs.list }

/-- The wiring of everything that is registered. -/
def ofList (l : List (Registration σ)) : Wiring σ := (l.foldl enter empty).ordered

/-- The built-in wiring, with the parameter that names a format. -/
def default (formatParam : Option String) : Wiring σ := ofList [.defaults, .formatParam formatParam]

/-- The wiring in short, for diagnostics. -/
def inspect (w : Wiring σ) : String :=
  "ResolverRegistry \x7b argument_factories: " ++ toString w.factories.length ++
    ", argument_advices: " ++ toString w.advices.length ++
    ", return_factories: " ++ toString w.replyFactories.length ++
    ", return_advices: " ++ toString w.replyAdvices.length ++
    ", ctx: " ++ w.codecs.inspect ++ " \x7d"

end Wiring

/-! ### Binding -/

/-- What changes the state of the application and may find that a handler cannot be bound. -/
abbrev Binder (σ : Type) := ExceptT BindFault (StateM σ)

/-- Resolves with all advices before and after. -/
def advised (advices : List (Advice σ)) (inner : Resolver σ) : Resolver σ := fun r => do
  advices.forM fun a => a.before r
  advices.foldlM (fun value a => a.after value r) (← inner r)

/-- Resolves a reply with all advices before. -/
def advisedReply (advices : List (ReplyAdvice σ)) (inner : ReplyResolver σ) : ReplyResolver σ :=
  fun reply r => do inner (← advices.foldlM (fun reply a => a.before reply r) reply) r

/-- The arguments that resolvers find, from left to right up to the first failure. -/
def resolveAll (resolvers : List (Resolver σ)) (r : Request) : Attempt σ Args :=
  resolvers.mapM fun f => f r

/-- The failure of a request for which a bean cannot be assembled. -/
def assemblyFailure (name : String) : CallFault → Failure
  | .mismatch f => .badRequest s!"cannot assemble {name}: {f.message}"
  | .failed f => f

/-- Resolves the fields of a bean and assembles it. -/
def assembled (b : Bean σ) (fields : List (Resolver σ)) : Resolver σ := fun r => do
  let args ← resolveAll fields r
  ExceptT.mk ((b.assemble r args).run.bind fun result =>
    .done (result.mapError (assemblyFailure b.name)))

namespace Wiring

variable (w : Wiring σ)

/-- Makes the resolver of a parameter that is no bean by the first factory that supports it. -/
def bindPlain (handler : String) (p : Param σ) : Binder σ (Resolver σ) :=
  match w.factories.find? fun f => f.supports p with
  | some f => ExceptT.mk (f.create p w.codecs)
  | none => throw (.noResolver handler p.index p.name)

/-- Puts the advices that support a parameter around its resolver. -/
def advise (p : Param σ) (inner : Resolver σ) : Resolver σ :=
  advised (w.advices.filter fun a => a.supports p) inner

/-- A parameter at its place. -/
def placed (index : Nat) (p : Param σ) : Param σ := { p with index }

mutual

/-- Makes the resolver of a parameter of the given type, which stands at the given place. -/
def bindAs (handler : String) (index : Nat) (p : Param σ) :
    ParamType σ → Binder σ (Resolver σ)
  | .bean b => do
    let fields ← bindBean handler b
    return w.advise (placed index p) (assembled b fields)
  | _ => do return w.advise (placed index p) (← w.bindPlain handler (placed index p))

/-- Makes the resolvers of the fields of a bean. -/
def bindBean (handler : String) : Bean σ → Binder σ (List (Resolver σ))
  | ⟨_, fields, _⟩ => bindFields handler 0 fields

/-- Makes the resolvers of parameters from left to right, numbered from `index`. -/
def bindFields (handler : String) (index : Nat) :
    List (Param σ) → Binder σ (List (Resolver σ))
  | [] => return []
  | p :: rest => do
    let f ← bindParam handler index p
    return f :: (← bindFields handler (index + 1) rest)

/-- Makes the resolver of a parameter at the given place. -/
def bindParam (handler : String) (index : Nat) : Param σ → Binder σ (Resolver σ)
  | ⟨i, name, source, type, required, default⟩ =>
    bindAs handler index ⟨i, name, source, type, required, default⟩ type

end

/-- Makes the resolver of a handler's replies by the first factory that supports the handler. -/
def bindReply (h : Handler σ) : Binder σ (ReplyResolver σ) := do
  match w.replyFactories.find? fun f => f.supports h with
  | some f =>
    let inner ← ExceptT.mk (f.create h w.codecs)
    return advisedReply (w.replyAdvices.filter fun a => a.supports h) inner
  | none => throw (.noReplyResolver h.render)

end Wiring

/-- The resolvers of a handler. -/
structure Bound (σ : Type) where
  args : List (Resolver σ)
  reply : ReplyResolver σ

/-- Makes the resolvers of a handler. -/
def Wiring.bind (w : Wiring σ) (h : Handler σ) : Binder σ (Bound σ) := do
  let args ← w.bindFields h.render 0 h.params
  return ⟨args, ← w.bindReply h⟩

end HttpDispatch
