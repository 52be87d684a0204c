import HttpDispatch.Proofs.Binding.Soundness
import HttpDispatch.Proofs.Binding.Trial
import HttpDispatch.Proofs.Text.Utf8

/-!
# Defaults

A default is converted when a handler is bound, the texts of a request when it is served. Both are
the same conversion, so that nobody can tell a request without a value from one that sends the
default, a text that is no default is refused for the reason that it is refused for in a request,
and a request with a value never meets the default.

* `Wiring.LeavesToBuiltIn`: a parameter that one of the built-in factories makes the resolver of;
* `ParamOf.Carries`, `ParamOf.HasValue`: the texts that a request has for a parameter;
* `ParamOf.settled`: what becomes of such a parameter, and `ParamOf.settled_of_none`,
  `ParamOf.settled_of_texts`, `ParamOf.settled_of_hasValue`;
* `Wiring.run_bindParam_of_isFromText`, `Wiring.exists_of_run_bindParam`: what binding it comes to;
* `Wiring.default_is_as_sent`: the default and the texts of requests.
-/

namespace HttpDispatch

variable {σ : Type}

namespace ParamOf

/-- **A parameter that text can be converted for**: one that is made from text alone, or an
entity. -/
def IsFromText (p : Param σ) : Prop := p.type.isTextual = true ∨ ∃ e, p.type = .entity e

/-- The entity of a parameter, if it is one, is read as JSON in a request. -/
def IsReadAsJson (codecs : Codecs) (r : Request) (p : Param σ) : Prop :=
  ∀ e, p.type = .entity e → codecs.reader? (r.contentType?.getD .json) e = some .json

/-- **The texts that a request has for a parameter**: the values that its source gives to its name,
or the body, if that is the source and is not empty. -/
inductive Carries (codecs : Codecs) (r : Request) (vars : Option Variables) (p : Param σ) :
    List String → Prop where
  | values {values : List String} (source : p.source ≠ .body)
    (found : valuesIn p.source p.type.isList p.name r vars = .ok values) :
    Carries codecs r vars p values
  | noBody (source : p.source = .body) (body : r.body = []) : Carries codecs r vars p []
  | body {d : String} (source : p.source = .body) (nonempty : d ≠ "")
    (body : r.body = Utf8.encode d) (reader : p.IsReadAsJson codecs r) : Carries codecs r vars p [d]

/-- **The request has a value for a parameter**: its source gives some value to its name, or there
is a body, if that is the source. -/
def HasValue (r : Request) (vars : Option Variables) (p : Param σ) : Prop :=
  match p.source with
  | .body => r.body ≠ []
  | source => ∃ values, valuesIn source p.type.isList p.name r vars = .ok values ∧ values ≠ []

/-- How refusals of a parameter's texts begin. -/
def complaint (p : Param σ) : String :=
  match p.source, p.type with
  | .body, .entity _ => "malformed request body: "
  | .body, _ => "failed to convert request body: "
  | _, _ => s!"failed to convert value of '{p.name}': "

/-- **The refusal of texts** that are no value of a parameter, with the reason of the conversion. -/
def refusal (p : Param σ) (reason : String) : Failure := .badRequest (p.complaint ++ reason)

/-- **What becomes of a parameter** that text can be converted for. -/
def settled (codecs : Codecs) (p : Param σ) (fallback : Fallback) (r : Request)
    (vars : Option Variables) : Except Failure Arg :=
  match p.source, p.type with
  | .body, .entity e => entityBody e codecs fallback r
  | .body, type => plainBody type fallback r.body
  | source, type => valuesIn source type.isList fallback.name r vars >>= convertOr type fallback

/-- The same parameter but for its place, its default, and whether it is required. -/
structure Varies (p q : Param σ) : Prop where
  name : q.name = p.name
  source : q.source = p.source
  type : q.type = p.type

variable {codecs : Codecs} {r : Request} {vars : Option Variables} {p q : Param σ}
  {fallback : Fallback} {values : List String} {d : String}

/-! ### With and without a value -/

theorem settled_of_source (h : p.source ≠ .body) : p.settled codecs fallback r vars =
    (valuesIn p.source p.type.isList fallback.name r vars >>= convertOr p.type fallback) := by
  obtain ⟨index, name, source, type, required, default⟩ := p
  cases source with
  | body => exact absurd rfl h
  | _ => rfl

theorem settled_of_entity {e : EntityType} (hsource : p.source = .body)
    (htype : p.type = .entity e) :
    p.settled codecs fallback r vars = entityBody e codecs fallback r := by
  rw [settled, hsource, htype]

theorem settled_of_body (hsource : p.source = .body) (htext : p.type.isTextual = true) :
    p.settled codecs fallback r vars = plainBody p.type fallback r.body := by
  obtain ⟨index, name, source, type, required, default⟩ := p
  obtain rfl : source = .body := hsource
  cases type with
  | entity e => cases htext
  | _ => rfl

theorem refusal_of_source (h : p.source ≠ .body) : p.refusal = fun reason =>
    .badRequest s!"failed to convert value of '{p.name}': {reason}" := by
  obtain ⟨index, name, source, type, required, default⟩ := p
  cases source with
  | body => exact absurd rfl h
  | _ => rfl

theorem refusal_of_entity {e : EntityType} (hsource : p.source = .body)
    (htype : p.type = .entity e) :
    p.refusal = fun reason => .badRequest s!"malformed request body: {reason}" := by
  funext reason
  rw [refusal, complaint, hsource, htype]
  rfl

theorem refusal_of_body (hsource : p.source = .body) (htext : p.type.isTextual = true) :
    p.refusal = fun reason => .badRequest s!"failed to convert request body: {reason}" := by
  obtain ⟨index, name, source, type, required, default⟩ := p
  obtain rfl : source = .body := hsource
  cases type with
  | entity e => cases htext
  | _ => rfl

/-- **Without a value** the fallback stands for the parameter. -/
theorem settled_of_none (hkind : p.IsFromText) (h : p.Carries codecs r vars [])
    (hname : fallback.name = p.name) : p.settled codecs fallback r vars = fallback.absent := by
  cases h with
  | values source found =>
    rw [settled_of_source source, hname, found]
    rfl
  | noBody source body =>
    rcases hkind with htext | ⟨e, htype⟩
    · rw [settled_of_body source htext]
      exact if_pos (List.isEmpty_iff.mpr body)
    · rw [settled_of_entity source htype]
      exact if_pos (List.isEmpty_iff.mpr body)

theorem plainBody_encode {type : ParamType σ} (hd : d ≠ "") :
    plainBody type fallback (Utf8.encode d) = (type.convert [d]).mapError fun reason =>
      .badRequest s!"failed to convert request body: {reason}" := by
  have hbody : ¬ (Utf8.encode d).isEmpty = true := by simpa using Utf8.encode_ne_nil hd
  unfold plainBody
  rw [if_neg hbody]
  split
  · rfl
  · rw [Utf8.decode_encode]

theorem entityBody_encode {e : EntityType} (hd : d ≠ "") (hbody : r.body = Utf8.encode d)
    (hreader : codecs.reader? (r.contentType?.getD .json) e = some .json) :
    entityBody e codecs fallback r = ((ParamType.entity e : ParamType σ).convert [d]).mapError
      fun reason => .badRequest s!"malformed request body: {reason}" := by
  have hnonempty : ¬ (Utf8.encode d).isEmpty = true := by simpa using Utf8.encode_ne_nil hd
  have hconvert : (ParamType.entity e : ParamType σ).convert [d] =
      (((Json.Value.read (Utf8.encode d)).mapError CodecFault.json >>= e.decode).mapError
        CodecFault.message) := rfl
  unfold entityBody
  dsimp only
  rw [hbody, if_neg hnonempty, hreader, hconvert]
  show ((((Json.Value.read (Utf8.encode d)).mapError CodecFault.json).mapError malformedBody) >>=
    fun v => (e.decode v).mapError malformedBody) = _
  cases Json.Value.read (Utf8.encode d) with
  | error fault => rfl
  | ok v =>
    show (e.decode v).mapError malformedBody = ((e.decode v).mapError CodecFault.message).mapError _
    cases e.decode v <;> rfl

/-- **Texts that a request has** are converted, and refused for the reason of the conversion. -/
theorem settled_of_texts (hkind : p.IsFromText) (h : p.Carries codecs r vars values)
    (hname : fallback.name = p.name) (hne : values ≠ []) :
    p.settled codecs fallback r vars = (p.type.convert values).mapError p.refusal := by
  cases h with
  | values source found =>
    rw [settled_of_source source, hname, found, refusal_of_source source, ← hname]
    exact convertOr_of_ne_nil hne
  | noBody source body => exact absurd rfl hne
  | body source nonempty body reader =>
    rcases hkind with htext | ⟨e, htype⟩
    · rw [settled_of_body source htext, body, refusal_of_body source htext]
      exact plainBody_encode nonempty
    · rw [settled_of_entity source htype, refusal_of_entity source htype, htype]
      exact entityBody_encode nonempty body (reader e htype)

/-- **With a value** the fallback does not matter, whatever the value is. -/
theorem settled_of_hasValue {other : Fallback} (hkind : p.IsFromText) (h : p.HasValue r vars)
    (hname : fallback.name = p.name) (hother : other.name = p.name) :
    p.settled codecs fallback r vars = p.settled codecs other r vars := by
  by_cases hsource : p.source = .body
  · have hbody : ¬ r.body.isEmpty = true := by
      rw [HasValue, hsource] at h
      simpa using h
    rcases hkind with htext | ⟨e, htype⟩
    · rw [settled_of_body hsource htext, settled_of_body hsource htext]
      unfold plainBody
      rw [if_neg hbody, if_neg hbody]
    · rw [settled_of_entity hsource htype, settled_of_entity hsource htype]
      unfold entityBody
      rw [if_neg hbody, if_neg hbody]
  · obtain ⟨values, hfound, hne⟩ : ∃ values,
        valuesIn p.source p.type.isList p.name r vars = .ok values ∧ values ≠ [] := by
      obtain ⟨index, name, source, type, required, default⟩ := p
      cases source with
      | body => exact absurd rfl hsource
      | _ => exact h
    rw [settled_of_source hsource, settled_of_source hsource, hname, hother, hfound]
    show convertOr p.type fallback values = convertOr p.type other values
    rw [convertOr_of_ne_nil hne, convertOr_of_ne_nil hne, hname, hother]

theorem Varies.settled (h : Varies p q) :
    q.settled codecs fallback r vars = p.settled codecs fallback r vars := by
  unfold ParamOf.settled
  rw [h.source, h.type]

theorem Varies.hasValue (h : Varies p q) (hvalue : q.HasValue r vars) : p.HasValue r vars := by
  unfold HasValue at *
  rwa [h.source, h.type, h.name] at hvalue

/-! ### Resolvers -/

/-- What is made of the fallback of a parameter settles the parameter, and is made unless nobody
could read the entity that the parameter is. -/
structure SettledBy (codecs : Codecs) (p : Param σ)
    (make : Fallback → Except BindFault (Resolver σ)) : Prop where
  made : (∀ e, p.type = .entity e → e.isReadable = true) → ∀ fallback, ∃ f, make fallback = .ok f
  run : ∀ fallback f, make fallback = .ok f → ∀ r s,
    (f r).run.run s = (some (p.settled codecs fallback r s.notes.pathVars), s)

/-- A source that feeds a parameter is its source, or gives the same values. -/
theorem valuesIn_of_feeds {source : Source} (h : (feeds source).contains p.source = true)
    (isList : Bool) (name : String) :
    valuesIn source isList name r vars = valuesIn p.source isList name r vars := by
  have hmem : p.source ∈ feeds source := by simpa using h
  cases source with
  | form =>
    have hsource : p.source = .form ∨ p.source = .part := by simpa [feeds] using hmem
    rcases hsource with hs | hs
    · rw [hs]
    · rw [hs]
      rfl
  | _ => rw [show p.source = _ from List.mem_singleton.mp hmem]

theorem settledBy_named {source : Source} (hsource : source ∈ namedSources)
    (hsupports : (namedFactory source).supports p = true) (codecs : Codecs) :
    SettledBy codecs p fun fallback => .ok (resolveNamed source p.type fallback) := by
  obtain ⟨hfeeds, -⟩ := (Bool.and_eq_true _ _).mp hsupports
  have hbody : p.source ≠ .body := by
    intro hbody
    rw [hbody] at hfeeds
    cases source with
    | body => exact absurd hsource (by decide)
    | _ => cases hfeeds
  constructor
  · exact fun _ fallback => ⟨_, rfl⟩
  · rintro fallback f hf r s
    cases hf
    rw [run_resolveNamed, settled_of_source hbody, valuesIn_of_feeds hfeeds]

theorem settledBy_plainBody (hsource : p.source = .body) (htext : p.type.isTextual = true)
    (codecs : Codecs) : SettledBy codecs p fun fallback =>
      .ok fun r => Attempt.ofExcept (plainBody p.type fallback r.body) := by
  constructor
  · exact fun _ fallback => ⟨_, rfl⟩
  · rintro fallback f hf r s
    cases hf
    rw [settled_of_body hsource htext]
    rfl

theorem settledBy_entityBody {e : EntityType} (hsource : p.source = .body)
    (htype : p.type = .entity e) (codecs : Codecs) : SettledBy codecs p fun fallback =>
      if e.isReadable then .ok fun r => Attempt.ofExcept (entityBody e codecs fallback r)
      else .error (.unreadableEntity p.name e.name) := by
  constructor
  · exact fun hreadable fallback => ⟨_, if_pos (hreadable e htype)⟩
  · rintro fallback f hf r s
    split at hf
    · cases hf
      rw [settled_of_entity hsource htype]
      rfl
    · cases hf

/-- **A built-in factory that supports a parameter** makes something of its fallback that settles
it. -/
theorem exists_settledBy {factory : Factory σ} (hmem : factory ∈ defaultFactories)
    (hsupports : factory.supports p = true) (hkind : p.IsFromText) (codecs : Codecs) :
    ∃ make, SettledBy codecs p make ∧
      ∀ app, factory.create p codecs app = (Fallback.ofParam p >>= make, app) := by
  have hnamed : ∀ source, source ∈ namedSources → factory = namedFactory source →
      ∃ make, SettledBy codecs p make ∧
        ∀ app, factory.create p codecs app = (Fallback.ofParam p >>= make, app) := by
    rintro source hsource rfl
    exact ⟨_, settledBy_named hsource hsupports codecs, fun app => rfl⟩
  have hother : (∀ e, p.type ≠ .entity e) → p.type.isTextual = true := fun hne =>
    hkind.resolve_right fun ⟨e, he⟩ => hne e he
  simp only [defaultFactories, List.mem_cons, List.not_mem_nil, or_false] at hmem
  rcases hmem with rfl | hpath | hquery | hheader | hcookie | rfl | hform | rfl
  · obtain ⟨index, name, source, type, required, default⟩ := p
    cases type with
    | request => cases hother fun e he => by cases he
    | response => cases hother fun e he => by cases he
    | _ => cases hsupports
  · exact hnamed .path (by decide) hpath
  · exact hnamed .query (by decide) hquery
  · exact hnamed .header (by decide) hheader
  · exact hnamed .cookie (by decide) hcookie
  · have htype := ((Bool.and_eq_true _ _).mp hsupports).2
    obtain ⟨index, name, source, type, required, default⟩ := p
    cases type with
    | file => cases hother fun e he => by cases he
    | files => cases hother fun e he => by cases he
    | _ => cases htype
  · exact hnamed .form (by decide) hform
  · have hsource : p.source = .body := eq_of_beq ((Bool.and_eq_true _ _).mp hsupports).1
    obtain ⟨index, name, source, type, required, default⟩ := p
    cases type with
    | entity e => exact ⟨_, settledBy_entityBody hsource rfl codecs, fun app => rfl⟩
    | scalar t => exact ⟨_, settledBy_plainBody hsource rfl codecs, fun app => rfl⟩
    | option t => exact ⟨_, settledBy_plainBody hsource rfl codecs, fun app => rfl⟩
    | list t => exact ⟨_, settledBy_plainBody hsource rfl codecs, fun app => rfl⟩
    | bytes => exact ⟨_, settledBy_plainBody hsource rfl codecs, fun app => rfl⟩
    | _ => cases hother fun e he => by cases he

theorem Carries.hasValue (h : p.Carries codecs r vars values) (hne : values ≠ []) :
    p.HasValue r vars := by
  cases h with
  | values source found =>
    obtain ⟨index, name, source', type, required, default⟩ := p
    cases source' with
    | body => exact absurd rfl source
    | _ => exact ⟨values, found, hne⟩
  | noBody source body => exact absurd rfl hne
  | body source nonempty body reader =>
    rw [HasValue, source]
    show r.body ≠ []
    rw [body]
    exact Utf8.encode_ne_nil nonempty

theorem IsFromText.not_bean (h : p.IsFromText) (b : Bean σ) : p.type ≠ .bean b := by
  intro hb
  rcases h with htext | ⟨e, he⟩
  · rw [hb] at htext
    cases htext
  · rw [hb] at he
    cases he

theorem isReadable_of_convert {a : Arg} (h : p.type.convert [d] = .ok a) (e : EntityType)
    (htype : p.type = .entity e) : e.isReadable = true := by
  rw [htype] at h
  obtain ⟨v, hv⟩ := ParamType.convert_holds (r := ⟨.get, "", none, 0, ⟨[]⟩, []⟩) h
  exact EntityType.isReadable_of_decode hv

end ParamOf

namespace Wiring

open ParamOf (IsFromText SettledBy Carries HasValue Varies)

variable {w : Wiring σ} {handler : String} {index : Nat} {p q : Param σ} {d : String}

/-- **A parameter is left to the built-in factories**: the first factory that supports it is one of
them. -/
def LeavesToBuiltIn (w : Wiring σ) (p : Param σ) : Prop :=
  ∃ factory ∈ defaultFactories, (w.factories.find? fun f => f.supports p) = some factory

/-- **Binding a parameter that text can be converted for** makes something that settles it of its
fallback, and puts the advices around it. -/
theorem run_bindParam_of_isFromText (handler : String) (hkind : p.IsFromText)
    (hleft : w.LeavesToBuiltIn (placed index p)) :
    ∃ make, SettledBy w.codecs p make ∧ ∀ app, (w.bindParam handler index p).run.run app =
      ((Fallback.ofParam p >>= make).map (w.advise (placed index p)), app) := by
  obtain ⟨factory, hmem, hfind⟩ := hleft
  have hsupports := List.find?_some hfind
  obtain ⟨make, hmake, hcreate⟩ := ParamOf.exists_settledBy hmem hsupports hkind w.codecs
  refine ⟨make, ⟨hmake.made, hmake.run⟩, fun app => ?_⟩
  have hplain : (w.bindPlain handler (placed index p)).run.run app =
      (Fallback.ofParam p >>= make, app) := by
    rw [bindPlain, hfind]
    exact hcreate app
  rw [bindParam_of_plain hkind.not_bean]
  cases hresult : Fallback.ofParam p >>= make with
  | error fault =>
    rw [hresult] at hplain
    exact Binder.run_bind_of_error hplain
  | ok f =>
    rw [hresult] at hplain
    exact Binder.run_bind_of_ok hplain

/-- The resolver of a parameter that was bound settles it with the fallback of the parameter. -/
theorem exists_of_run_bindParam (hkind : p.IsFromText) (hleft : w.LeavesToBuiltIn (placed index p))
    {g : Resolver σ} {app app' : σ}
    (h : (w.bindParam handler index p).run.run app = (.ok g, app')) :
    ∃ fallback f, Fallback.ofParam p = .ok fallback ∧ g = w.advise (placed index p) f ∧
      ∀ r s, (f r).run.run s = (some (p.settled w.codecs fallback r s.notes.pathVars), s) := by
  obtain ⟨make, hmake, hrun⟩ := run_bindParam_of_isFromText handler hkind hleft
  rw [hrun app] at h
  obtain ⟨f, hf, hg⟩ := map_eq_ok_iff.mp (congrArg Prod.fst h)
  obtain ⟨fallback, hfallback, hf⟩ := bind_eq_ok_iff.mp hf
  exact ⟨fallback, f, hfallback, hg.symm, hmake.run fallback f hf⟩

/-- **A default is as good as sent.** For a parameter that text can be converted for, left to the
built-in factories, with a default:

* a default that denotes an argument stands for it in every request without a value, and every
  request that has just the default as its text has the same argument;
* a default that denotes none is a binding fault, for the reason for which it is refused in a
  request;
* a request with a value has its answer whatever the default is, if there is one, and whether or not
  the parameter is required: the texts of the request are converted or refused.

All this is so beneath the advices, which may do as they please. -/
theorem default_is_as_sent (handler : String) (hkind : p.IsFromText)
    (hleft : w.LeavesToBuiltIn (placed index p)) (hdefault : p.default = some d) :
    (∀ a, p.type.convert [d] = .ok a → ∃ f,
      (∀ app, (w.bindParam handler index p).run.run app =
        (.ok (w.advise (placed index p) f), app)) ∧
      ∀ r s, (p.Carries w.codecs r s.notes.pathVars [] ∨
        p.Carries w.codecs r s.notes.pathVars [d]) → (f r).run.run s = (some (.ok a), s)) ∧
    (∀ reason, p.type.convert [d] = .error reason → ∀ app,
      (w.bindParam handler index p).run.run app = (.error (.invalidDefault p.name d reason), app)) ∧
    ∃ given : Request → Option Variables → Except Failure Arg,
      (∀ r vars values, p.Carries w.codecs r vars values → values ≠ [] →
        p.HasValue r vars ∧ given r vars = (p.type.convert values).mapError p.refusal) ∧
      ∀ q, p.Varies q → w.LeavesToBuiltIn (placed index q) → ∀ g app app',
        (w.bindParam handler index q).run.run app = (.ok g, app') →
        ∃ f, g = w.advise (placed index q) f ∧ ∀ r s, q.HasValue r s.notes.pathVars →
          (f r).run.run s = (some (given r s.notes.pathVars), s) := by
  obtain ⟨make, hmake, hrun⟩ := run_bindParam_of_isFromText handler hkind hleft
  refine ⟨fun a ha => ?_, fun reason hreason app => ?_, ?_⟩
  · have hfallback : Fallback.ofParam p = .ok ⟨p.name, p.required, some a⟩ := by
      rw [Fallback.ofParam, hdefault]
      dsimp only
      rw [ha]
    obtain ⟨f, hf⟩ := hmake.made (ParamOf.isReadable_of_convert ha) ⟨p.name, p.required, some a⟩
    refine ⟨f, fun app => ?_, fun r s hcarries => ?_⟩
    · rw [hrun app, hfallback]
      show ((make _).map _, app) = _
      rw [hf]
      rfl
    · rw [hmake.run _ f hf r s]
      rcases hcarries with hnone | hsent
      · rw [ParamOf.settled_of_none hkind hnone rfl]
        rfl
      · rw [ParamOf.settled_of_texts hkind hsent rfl (List.cons_ne_nil d []), ha]
        rfl
  · have hfallback : Fallback.ofParam p = .error (.invalidDefault p.name d reason) := by
      rw [Fallback.ofParam, hdefault]
      dsimp only
      rw [hreason]
    rw [hrun app, hfallback]
    rfl
  · refine ⟨fun r vars => p.settled w.codecs ⟨p.name, true, none⟩ r vars,
      fun r vars values hcarries hne => ⟨hcarries.hasValue hne, ?_⟩, ?_⟩
    · exact ParamOf.settled_of_texts hkind hcarries rfl hne
    · intro q hvaries hleft' g app app' hbound
      have hkind' : q.IsFromText := by
        rw [IsFromText, hvaries.type]
        exact hkind
      obtain ⟨fallback, f, hfallback, hg, hf⟩ := exists_of_run_bindParam hkind' hleft' hbound
      refine ⟨f, hg, fun r s hvalue => ?_⟩
      have hname : fallback.name = p.name := (ParamOf.name_ofParam hfallback).trans hvaries.name
      have hsame : p.settled w.codecs fallback r s.notes.pathVars =
          p.settled w.codecs ⟨p.name, true, none⟩ r s.notes.pathVars :=
        ParamOf.settled_of_hasValue hkind (hvaries.hasValue hvalue) hname rfl
      rw [hf r s, hvaries.settled, hsame]

/-- The number of a page, the seventh unless the request says another. -/
def pageParam : Param Unit :=
  { ParamOf.of "page" .query (.scalar (.whole .u32)) with default := some "7" }

/-- A request without a page has the seventh, as a request for the seventh has. -/
theorem seventh_page_is_default :
    ∃ f, ((Wiring.default none).bindParam "list" 0 pageParam).run.run () =
        (.ok ((Wiring.default none).advise (placed 0 pageParam) f), ()) ∧
      ∀ s, (f ⟨.get, "/", none, 1, ⟨[]⟩, []⟩).run.run s =
          (some (.ok (.scalar (.whole .u32 7))), s) ∧
        (f seventhPage).run.run s = (some (.ok (.scalar (.whole .u32 7))), s) := by
  have hkind : pageParam.IsFromText := .inl rfl
  have hleft : (Wiring.default none).LeavesToBuiltIn (placed 0 pageParam) := by
    rw [default_eq]
    exact ⟨namedFactory .query, by simp [defaultFactories], rfl⟩
  have hconvert : pageParam.type.convert ["7"] = .ok (.scalar (.whole .u32 7)) := rfl
  obtain ⟨f, hbind, hsettled⟩ := (default_is_as_sent "list" hkind hleft rfl).1 _ hconvert
  refine ⟨f, hbind (), fun s => ⟨hsettled _ s (.inl ?_), hsettled _ s (.inr ?_)⟩⟩
  · exact .values (by decide) rfl
  · refine .values (by decide) ?_
    show Except.ok (seventhPage.queryParams "page") = _
    have hvalues : seventhPage.queryParams "page" = ["7"] := by decide +kernel
    rw [hvalues]

end Wiring

end HttpDispatch
