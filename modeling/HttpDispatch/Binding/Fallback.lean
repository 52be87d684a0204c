import HttpDispatch.Binding.Handler

/-!
# Binding faults and absent values

A handler that cannot be bound has a `BindFault`. Binding a parameter converts its default, if it
has one, once and for all; `Fallback.ofParam` settles what a parameter stands for when the request
has no value for it: its default, nothing if it is required, or the empty value of its type.
-/

namespace HttpDispatch

/-- Why a handler cannot be bound. -/
inductive BindFault where
  | noResolver (handler : String) (index : Nat) (name : String)
  | noReplyResolver (handler : String)
  | invalidDefault (name value reason : String)
  | missingCodec (handler codec : String)
  | unreadableEntity (name typeName : String)
  deriving DecidableEq, Repr

namespace BindFault

/-- The wording of a fault. -/
def message : BindFault → String
  | noResolver handler index name =>
    s!"no argument resolver supports parameter [{index}] '{name}' of {handler}"
  | noReplyResolver handler => s!"no return value resolver supports {handler}"
  | invalidDefault name value reason =>
    s!"invalid default value {Text.quoted value} for parameter '{name}': {reason}"
  | missingCodec handler codec => s!"serializer '{codec}' required by {handler} is not registered"
  | unreadableEntity name typeName =>
    s!"parameter '{name}' of type {typeName} cannot be read from the request body"

/-- The failure of a request whose handler cannot be bound. -/
def failure (f : BindFault) : Failure := .internal f.message

end BindFault

/-- What a parameter stands for when there is no value: an argument, or none if one is required. -/
structure Fallback where
  name : String
  required : Bool
  value : Option Arg

namespace Fallback

variable {σ : Type}

/-- The rule of a parameter; a default goes before everything else. -/
def ofParam (p : Param σ) : Except BindFault Fallback :=
  match p.default with
  | some d =>
    match p.type.convert [d] with
    | .ok a => .ok ⟨p.name, p.required, some a⟩
    | .error reason => .error (.invalidDefault p.name d reason)
  | none =>
    .ok ⟨p.name, p.required, if p.required then none else some p.type.emptyValue⟩

/-- The argument of a request without a value. -/
def absent (f : Fallback) : Except Failure Arg :=
  match f.value with
  | some a => .ok a
  | none => .error (.badRequest s!"missing required value: {f.name}")

end Fallback

end HttpDispatch
