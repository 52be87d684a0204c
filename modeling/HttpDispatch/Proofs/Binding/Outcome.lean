import HttpDispatch.Binding.Wiring
import HttpDispatch.Proofs.Argument.Typed

/-!
# What becomes of a parameter

A parameter is resolved to an argument of its type, or to the null argument, or the request fails.
The null argument is for parameters that need no value and have none, neither in the request nor as
a default nor as the empty value of their type. A failure is the client's, unless nobody reads the
body of an entity, or a bean raises a failure of its own.

* `ParamType.Holds`: the arguments of a type, and their type names;
* `ParamOf.Lacks`, `ParamOf.Null`: when a request has no value, and when null stands for it;
* `ParamOf.Blame`, `ParamOf.Crashes`, `ParamOf.Outcome`: what may become of a parameter;
* `outcome_named`, `outcome_file`, `outcome_body`, `outcome_injected`: the built-in resolvers.
-/

namespace HttpDispatch

variable {σ : Type}

theorem ScalarType.convert_typed {t : ScalarType} {raw : String} {v : Scalar}
    (h : t.convert raw = .ok v) : v.typeName = t.name := t.typed raw v (mapError_eq_ok_iff.mp h)

namespace EntityType

variable {e : EntityType} {v : Json.Value} {a : Arg}

theorem exists_of_decode (h : e.decode v = .ok a) : ∃ f ∈ e.read, f v = .ok a := by
  unfold decode at h
  split at h
  · next f hf => exact ⟨f, hf, mapError_eq_ok_iff.mp h⟩
  · cases h

/-- **What is decoded as an entity** is of the entity's type. -/
theorem typeName?_of_decode (h : e.decode v = .ok a) : a.typeName? = some e.name := by
  obtain ⟨f, hf, hv⟩ := exists_of_decode h
  exact e.typed f hf v a hv

theorem isReadable_of_decode (h : e.decode v = .ok a) : e.isReadable := by
  obtain ⟨f, hf, -⟩ := exists_of_decode h
  exact Option.isSome_of_mem hf

theorem holds_of_decode_ofShape {s : Shape} (h : (ofShape s).decode v = .ok a) : s.Holds a :=
  s.decode_holds (mapError_eq_ok_iff.mp h)

end EntityType

namespace ParamType

/-- **The arguments of a type** in a request: values of the type itself, optional ones, lists, bytes,
what some value is as an entity, files, the request, the response, or what a bean is. -/
def Holds (r : Request) : ParamType σ → Arg → Prop
  | scalar t, a => ∃ v, v.typeName = t.name ∧ a = .scalar v
  | option t, a => ∃ v, (∀ x ∈ v, x.typeName = t.name) ∧ a = .option t.name v
  | list t, a => ∃ items, (∀ x ∈ items, x.typeName = t.name) ∧ a = listOf t items
  | bytes, a => ∃ data, a = .bytes data
  | entity e, a => ∃ v, e.decode v = .ok a
  | file, a => ∃ f, a = .file f
  | files, a => ∃ files, a = .ofFiles files
  | request, a => a = .request r
  | response, a => a = .response
  | bean b, a => a.typeName? = some b.name

variable {type : ParamType σ} {r : Request} {a : Arg}

theorem Holds.typeName? (h : type.Holds r a) : a.typeName? = some type.argName := by
  cases type with
  | scalar t => obtain ⟨v, hv, rfl⟩ := h; exact congrArg some hv
  | option t => obtain ⟨v, -, rfl⟩ := h; rfl
  | list t => obtain ⟨items, -, rfl⟩ := h; rfl
  | bytes => obtain ⟨data, rfl⟩ := h; rfl
  | entity e => obtain ⟨v, hv⟩ := h; exact EntityType.typeName?_of_decode hv
  | file => obtain ⟨f, rfl⟩ := h; rfl
  | files => obtain ⟨files, rfl⟩ := h; rfl
  | request => cases h; rfl
  | response => cases h; rfl
  | bean b => exact h

/-- **What is converted is of the type.** -/
theorem convert_holds {values : List String} (h : type.convert values = .ok a) :
    type.Holds r a := by
  cases type with
  | scalar t =>
    cases values with
    | nil => cases h
    | cons raw values =>
      obtain ⟨v, hv, rfl⟩ := map_eq_ok_iff.mp h
      exact ⟨v, ScalarType.convert_typed hv, rfl⟩
  | option t =>
    cases values with
    | nil => cases h
    | cons raw values =>
      obtain ⟨v, hv, rfl⟩ := map_eq_ok_iff.mp h
      exact ⟨some v, fun x hx => Option.some.inj hx ▸ ScalarType.convert_typed hv, rfl⟩
  | list t =>
    obtain ⟨items, hitems, rfl⟩ := map_eq_ok_iff.mp h
    refine ⟨items, fun x hx => ?_, rfl⟩
    obtain ⟨raw, -, hraw⟩ := exists_of_mapM_ok hitems x hx
    exact ScalarType.convert_typed hraw
  | bytes =>
    cases values with
    | nil => cases h
    | cons raw values => cases h; exact ⟨_, rfl⟩
  | entity e =>
    cases values with
    | nil => cases h
    | cons text values =>
      have h : readEntity e text = .ok a := mapError_eq_ok_iff.mp h
      obtain ⟨v, -, hv⟩ := bind_eq_ok_iff.mp h
      exact ⟨v, hv⟩
  | _ => cases h

/-- Types without a value for nothing: entities, single files, and values without a zero. -/
def HasNoEmpty : ParamType σ → Prop
  | scalar t => t.zero = none
  | entity _ => True
  | file => True
  | _ => False

/-- Types of what a request carries: neither the request nor the response, nor beans. -/
def IsCarried : ParamType σ → Prop
  | request => False
  | response => False
  | bean _ => False
  | _ => True

/-- The zero of a type of values is one of its values. -/
def ZeroTyped : ParamType σ → Prop
  | scalar t => ∀ v ∈ t.zero, v.typeName = t.name
  | _ => True

/-- **The empty value is of the type**, or null where the type has none. -/
theorem emptyValue_holds (hcarried : type.IsCarried) (hzero : type.ZeroTyped) :
    type.Holds r type.emptyValue ∨ (type.emptyValue = .null ∧ type.HasNoEmpty) := by
  cases type with
  | scalar t =>
    cases hz : t.zero with
    | none =>
      refine .inr ⟨?_, hz⟩
      rw [emptyValue, hz]
      rfl
    | some v =>
      refine .inl ⟨v, hzero v hz, ?_⟩
      rw [emptyValue, hz]
      rfl
  | option t => exact .inl ⟨none, by simp, rfl⟩
  | list t => exact .inl ⟨[], by simp, rfl⟩
  | bytes => exact .inl ⟨[], rfl⟩
  | entity e => exact .inr ⟨rfl, trivial⟩
  | file => exact .inr ⟨rfl, trivial⟩
  | files => exact .inl ⟨[], rfl⟩
  | request => exact hcarried.elim
  | response => exact hcarried.elim
  | bean b => exact hcarried.elim

end ParamType

/-! ### Outcomes -/

namespace ParamOf

/-- **The request has no value for a parameter**: none under its name where its source is, or no
body. -/
def Lacks (r : Request) (vars : Option Variables) (p : Param σ) : Prop :=
  match p.source with
  | .query => r.queryParams p.name = []
  | .header => r.fields.getAll p.name = []
  | .path => vars.bind (·.get? p.name) = none
  | .cookie => r.cookie? p.name = none
  | .body => r.body = []
  | _ =>
    ∃ form, r.form = .ok form ∧
      match p.type with
      | .file => form.filesOf p.name = []
      | _ => form.values p.name = []

/-- **Null stands for a parameter** that needs no value and has none. -/
structure Null (r : Request) (vars : Option Variables) (p : Param σ) : Prop where
  lacks : p.Lacks r vars
  optional : p.required = false
  default : p.default = none
  kind : p.type.HasNoEmpty

/-- **Who is to blame for a failure.** -/
inductive Blame (codecs : Codecs) (r : Request) : Param σ → Failure → Prop where
  /-- The client. -/
  | client {p e} (answer : e.answer = .badRequest) : Blame codecs r p e
  /-- The client sends an entity in a media type that nobody reads. -/
  | unread {p e entity} (answer : e.answer = .unsupportedMediaType) (source : p.source = .body)
    (type : p.type = .entity entity) (body : r.body ≠ [])
    (none : ∀ k ∈ codecs.list, k.reads (r.contentType?.getD .json) entity = false) :
    Blame codecs r p e
  /-- The assembly of a bean, with a failure of its own. -/
  | assembly {p e} {b : Bean σ} {args s} (type : p.type = .bean b)
    (raised : ((b.assemble r args).run.run s).1 = some (.error (.failed e))) : Blame codecs r p e
  /-- Whoever is to blame for a field of a bean. -/
  | field {p e} {b : Bean σ} {q : Param σ} (type : p.type = .bean b) (field : q ∈ b.fields)
    (blame : Blame codecs r q e) : Blame codecs r p e

/-- **The assembly of a bean crashes**, of the parameter itself or of a field in it. -/
inductive Crashes (r : Request) : Param σ → Prop where
  | assembly {p} {b : Bean σ} {args s} (type : p.type = .bean b)
    (crashed : ((b.assemble r args).run.run s).1 = none) : Crashes r p
  | field {p} {b : Bean σ} {q : Param σ} (type : p.type = .bean b) (field : q ∈ b.fields)
    (crash : Crashes r q) : Crashes r p

/-- **What becomes of a parameter.** -/
def Outcome (codecs : Codecs) (r : Request) (vars : Option Variables) (p : Param σ) :
    Option (Except Failure Arg) → Prop
  | some (.ok a) => p.type.Holds r a ∨ (a = .null ∧ p.Null r vars)
  | some (.error e) => p.Blame codecs r e
  | none => p.Crashes r

variable {codecs : Codecs} {r : Request} {vars : Option Variables} {p : Param σ}
  {fallback : Fallback}

theorem name_ofParam (h : Fallback.ofParam p = .ok fallback) : fallback.name = p.name := by
  unfold Fallback.ofParam at h
  split at h
  · split at h
    · cases h; rfl
    · cases h
  · cases h; rfl

/-- **What a fallback gives**, where the request has no value. -/
theorem outcome_absent (h : Fallback.ofParam p = .ok fallback) (hcarried : p.type.IsCarried)
    (hzero : p.type.ZeroTyped) (hlacks : p.type.HasNoEmpty → p.Lacks r vars) :
    p.Outcome codecs r vars (some fallback.absent) := by
  unfold Fallback.ofParam at h
  split at h
  · split at h
    · next hconvert =>
      cases h
      exact .inl (ParamType.convert_holds hconvert)
    · cases h
  · next hdefault =>
    cases h
    cases hrequired : p.required with
    | true => exact .client rfl
    | false =>
      rcases ParamType.emptyValue_holds (r := r) hcarried hzero with hholds | ⟨hnull, hkind⟩
      · exact .inl hholds
      · exact .inr ⟨hnull, hlacks hkind, hrequired, hdefault, hkind⟩

/-! ### Values and fallbacks -/

theorem isCarried_of_isTextual (h : p.type.isTextual) : p.type.IsCarried := by
  cases ht : p.type <;> rw [ht] at h <;> trivial

theorem convertOr_of_ne_nil {type : ParamType σ} {values : List String} (h : values ≠ []) :
    convertOr type fallback values = (type.convert values).mapError fun reason =>
      .badRequest s!"failed to convert value of '{fallback.name}': {reason}" :=
  if_neg (by simpa using h)

/-- **What converts values** gives an argument of the type or a failure of the client, and what a
fallback gives where there are none. -/
theorem outcome_convertOr {values : List String} (h : Fallback.ofParam p = .ok fallback)
    (hcarried : p.type.IsCarried) (hzero : p.type.ZeroTyped)
    (hlacks : values = [] → p.type.HasNoEmpty → p.Lacks r vars) :
    p.Outcome codecs r vars (some (convertOr p.type fallback values)) := by
  unfold convertOr
  split
  · next hempty => exact outcome_absent h hcarried hzero (hlacks (List.isEmpty_iff.mp hempty))
  · cases hconvert : p.type.convert values with
    | error reason => exact .client rfl
    | ok a => exact .inl (ParamType.convert_holds hconvert)

/-! ### The request and the response -/

theorem outcome_injected {app app' : σ} {f : Resolver σ} (hsupports : injectedFactory.supports p)
    (hcreate : injectedFactory.create p codecs app = (.ok f, app')) (s : Scene σ) :
    p.Outcome codecs r s.notes.pathVars ((f r).run.run s).1 := by
  obtain ⟨index, name, source, type, required, default⟩ := p
  cases type with
  | request => cases hcreate; exact .inl rfl
  | response => cases hcreate; exact .inl rfl
  | _ => cases hsupports

/-! ### Forms -/

theorem answer_of_formValues {name : String} {e : Failure} (h : formValues r name = .error e) :
    e.answer = .badRequest := by
  unfold formValues at h
  split at h
  · cases h
  · cases h; rfl

theorem answer_of_formFiles {name : String} {e : Failure} (h : formFiles r name = .error e) :
    e.answer = .badRequest := by
  unfold formFiles at h
  split at h
  · cases h
  · cases h; rfl

theorem exists_of_formValues {name : String} {values : List String}
    (h : formValues r name = .ok values) : ∃ form, r.form = .ok form ∧ form.values name = values := by
  unfold formValues at h
  split at h
  · next form hform => exact ⟨form, hform, Except.ok.inj h⟩
  · cases h

theorem exists_of_formFiles {name : String} {files : List File}
    (h : formFiles r name = .ok files) : ∃ form, r.form = .ok form ∧ form.filesOf name = files := by
  unfold formFiles at h
  split at h
  · next form hform => exact ⟨form, hform, Except.ok.inj h⟩
  · cases h

theorem lacks_of_form (hsource : p.source = .part ∨ p.source = .form)
    (h : ∃ form, r.form = .ok form ∧
      match p.type with
      | .file => form.filesOf p.name = []
      | _ => form.values p.name = []) : p.Lacks r vars := by
  unfold Lacks
  rcases hsource with hs | hs <;> rw [hs] <;> exact h

/-! ### Named values -/

theorem exists_of_create_named {source : Source} {app app' : σ} {f : Resolver σ}
    (h : (namedFactory source).create p codecs app = (.ok f, app')) :
    ∃ fallback, Fallback.ofParam p = .ok fallback ∧ f = resolveNamed source p.type fallback := by
  obtain ⟨fallback, hfallback, hf⟩ := bind_eq_ok_iff.mp (congrArg Prod.fst h)
  exact ⟨fallback, hfallback, (Except.ok.inj hf).symm⟩

/-- **A resolver of named values** looks them up, converts them, and changes nothing. -/
theorem run_resolveNamed (source : Source) (type : ParamType σ) (fallback : Fallback) (r : Request)
    (s : Scene σ) :
    (resolveNamed source type fallback r).run.run s =
      (some (valuesIn source type.isList fallback.name r s.notes.pathVars >>=
        convertOr type fallback), s) := by
  show (((Attempt.ofExcept (valuesIn source type.isList fallback.name r s.notes.pathVars) >>=
    fun values => Attempt.ofExcept (convertOr type fallback values) : Attempt σ Arg).run).run s) = _
  cases valuesIn source type.isList fallback.name r s.notes.pathVars <;> rfl

theorem isList_of_hasNoEmpty (h : p.type.HasNoEmpty) : p.type.isList = false := by
  cases ht : p.type <;> rw [ht] at h <;> first | rfl | cases h

theorem answer_of_valuesIn {source : Source} {isList : Bool} {name : String} {e : Failure}
    (h : valuesIn source isList name r vars = .error e) : e.answer = .badRequest := by
  cases source with
  | query | header | path | cookie => cases h
  | _ => exact answer_of_formValues h

/-- The sources of named values. -/
def namedSources : List Source := [.path, .query, .header, .cookie, .form]

/-- **A source that gives no values** to the name of a parameter lacks it. -/
theorem lacks_of_valuesIn {source : Source} (hsource : source ∈ namedSources)
    (hfeeds : (feeds source).contains p.source) (htext : p.type.isTextual)
    (hkind : p.type.HasNoEmpty)
    (h : valuesIn source p.type.isList p.name r vars = .ok []) : p.Lacks r vars := by
  rw [isList_of_hasNoEmpty hkind] at h
  cases source with
  | query | header | path | cookie =>
    simp only [feeds, List.contains_cons, List.contains_nil, Bool.or_false, beq_iff_eq] at hfeeds
    simpa [Lacks, hfeeds] using Except.ok.inj h
  | form =>
    have hs : p.source = .part ∨ p.source = .form := by simpa [feeds, or_comm] using hfeeds
    have hform := exists_of_formValues h
    refine lacks_of_form hs ?_
    cases ht : p.type <;> rw [ht] at htext <;> first | exact hform | cases htext
  | body | part | injected | bean => exact absurd hsource (by decide)

theorem outcome_named {source : Source} (hsource : source ∈ namedSources)
    {app app' : σ} {f : Resolver σ} (hsupports : (namedFactory source).supports p)
    (hzero : p.type.ZeroTyped) (hcreate : (namedFactory source).create p codecs app = (.ok f, app'))
    (s : Scene σ) : p.Outcome codecs r s.notes.pathVars ((f r).run.run s).1 := by
  obtain ⟨hfeeds, htext⟩ := (Bool.and_eq_true _ _).mp hsupports
  obtain ⟨fallback, hfallback, rfl⟩ := exists_of_create_named hcreate
  rw [run_resolveNamed, name_ofParam hfallback]
  cases hvalues : valuesIn source p.type.isList p.name r s.notes.pathVars with
  | error e => exact .client (answer_of_valuesIn hvalues)
  | ok values =>
    refine outcome_convertOr hfallback (isCarried_of_isTextual htext) hzero ?_
    rintro rfl hkind
    exact lacks_of_valuesIn hsource hfeeds htext hkind hvalues

/-! ### Files -/

/-- **Files**: one or all of those under the name of the parameter. -/
theorem outcome_filesOr {many : Bool} (h : Fallback.ofParam p = .ok fallback)
    (hsource : p.source = .part ∨ p.source = .form)
    (htype : p.type = if many then .files else .file) :
    p.Outcome codecs r vars (some (formFiles r p.name >>= filesOr many fallback)) := by
  have hcarried : p.type.IsCarried := by rw [htype]; cases many <;> trivial
  have hzero : p.type.ZeroTyped := by rw [htype]; cases many <;> trivial
  cases hfiles : formFiles r p.name with
  | error e => exact .client (answer_of_formFiles hfiles)
  | ok files =>
    cases files with
    | nil =>
      refine outcome_absent h hcarried hzero fun hkind => lacks_of_form hsource ?_
      have hfile : p.type = .file := by
        cases many with
        | false => exact htype
        | true => rw [htype] at hkind; exact hkind.elim
      rw [hfile]
      exact exists_of_formFiles hfiles
    | cons file files =>
      show p.type.Holds r _ ∨ _
      rw [htype]
      cases many with
      | false => exact .inl ⟨file, rfl⟩
      | true => exact .inl ⟨file :: files, rfl⟩

theorem outcome_file {app app' : σ} {f : Resolver σ} (hsupports : fileFactory.supports p)
    (hcreate : fileFactory.create p codecs app = (.ok f, app')) (s : Scene σ) :
    p.Outcome codecs r s.notes.pathVars ((f r).run.run s).1 := by
  obtain ⟨hsource, htype⟩ := (Bool.and_eq_true _ _).mp hsupports
  have hsource : p.source = .part ∨ p.source = .form := by simpa using hsource
  obtain ⟨fallback, hfallback, hf⟩ := bind_eq_ok_iff.mp (congrArg Prod.fst hcreate)
  cases hf
  have hout : ∀ many, p.type = (if many then .files else .file) →
      p.Outcome codecs r s.notes.pathVars (some (formFiles r fallback.name >>= filesOr many fallback)) :=
    fun many htype => name_ofParam hfallback ▸ outcome_filesOr hfallback hsource htype
  obtain ⟨index, name, source, type, required, default⟩ := p
  cases type with
  | file => exact hout false rfl
  | files => exact hout true rfl
  | _ => cases htype

/-! ### Bodies -/

/-- **A body without structure.** -/
theorem outcome_plainBody (h : Fallback.ofParam p = .ok fallback) (hsource : p.source = .body)
    (htext : p.type.isTextual) (hzero : p.type.ZeroTyped) :
    p.Outcome codecs r vars (some (plainBody p.type fallback r.body)) := by
  unfold plainBody
  split
  · next hempty =>
    refine outcome_absent h (isCarried_of_isTextual htext) hzero fun _ => ?_
    simpa [Lacks, hsource] using hempty
  · split
    · next hbytes =>
      exact .inl (by rw [hbytes]; exact ⟨_, rfl⟩)
    · split
      · exact .client rfl
      · next text _ =>
        cases hconvert : p.type.convert [text] with
        | error reason => exact .client rfl
        | ok a => exact .inl (ParamType.convert_holds hconvert)

/-- **The body of an entity.** -/
theorem outcome_entityBody {e : EntityType} (h : Fallback.ofParam p = .ok fallback)
    (hsource : p.source = .body) (htype : p.type = .entity e) :
    p.Outcome codecs r vars (some (entityBody e codecs fallback r)) := by
  unfold entityBody
  split
  · next hempty =>
    refine outcome_absent h (by rw [htype]; trivial) (by rw [htype]; trivial) fun _ => ?_
    simpa [Lacks, hsource] using hempty
  · next hbody =>
    dsimp only
    split
    · next hnone =>
      have hnone : ∀ k ∈ codecs.list, k.reads (r.contentType?.getD .json) e = false := by
        simpa [Codecs.reader?] using hnone
      exact .unread rfl hsource htype (by simpa using hbody) hnone
    · next codec _ =>
      cases hread : codec.decode r.body e with
      | error fault => exact .client rfl
      | ok v =>
        show p.Outcome codecs r vars (some ((e.decode v).mapError malformedBody))
        cases hdecode : e.decode v with
        | error fault => exact .client rfl
        | ok a => exact .inl (htype ▸ ⟨v, hdecode⟩)

theorem outcome_body {app app' : σ} {f : Resolver σ} (hsupports : bodyFactory.supports p)
    (hzero : p.type.ZeroTyped) (hcreate : bodyFactory.create p codecs app = (.ok f, app'))
    (s : Scene σ) : p.Outcome codecs r s.notes.pathVars ((f r).run.run s).1 := by
  obtain ⟨hsource, htype⟩ := (Bool.and_eq_true _ _).mp hsupports
  have hsource : p.source = .body := eq_of_beq hsource
  obtain ⟨fallback, hfallback, hf⟩ := bind_eq_ok_iff.mp (congrArg Prod.fst hcreate)
  obtain ⟨index, name, source, type, required, default⟩ := p
  have hplain : type.isTextual → f = (fun r => Attempt.ofExcept (plainBody type fallback r.body)) →
      Outcome codecs r s.notes.pathVars ⟨index, name, source, type, required, default⟩
        ((f r).run.run s).1 := by
    rintro htext rfl
    exact outcome_plainBody hfallback hsource htext hzero
  cases type with
  | entity e =>
    have hf : (if e.isReadable then
        Except.ok fun r => Attempt.ofExcept (entityBody e codecs fallback r)
      else Except.error (BindFault.unreadableEntity name e.name)) = Except.ok f := hf
    split at hf
    · cases hf
      exact outcome_entityBody hfallback hsource rfl
    · cases hf
  | scalar t => exact hplain rfl (Except.ok.inj hf).symm
  | option t => exact hplain rfl (Except.ok.inj hf).symm
  | list t => exact hplain rfl (Except.ok.inj hf).symm
  | bytes => exact hplain rfl (Except.ok.inj hf).symm
  | _ => cases htype

/-- **Whichever built-in factory makes the resolver of a parameter**, nothing else can become of the
parameter. -/
theorem outcome_of_mem {factory : Factory σ} (hmem : factory ∈ defaultFactories) {app app' : σ}
    {f : Resolver σ} (hsupports : factory.supports p) (hzero : p.type.ZeroTyped)
    (hcreate : factory.create p codecs app = (.ok f, app')) (s : Scene σ) :
    p.Outcome codecs r s.notes.pathVars ((f r).run.run s).1 := by
  simp only [defaultFactories, List.mem_cons, List.not_mem_nil, or_false] at hmem
  rcases hmem with rfl | rfl | rfl | rfl | rfl | rfl | rfl | rfl
  · exact outcome_injected hsupports hcreate s
  · exact outcome_named (by decide) hsupports hzero hcreate s
  · exact outcome_named (by decide) hsupports hzero hcreate s
  · exact outcome_named (by decide) hsupports hzero hcreate s
  · exact outcome_named (by decide) hsupports hzero hcreate s
  · exact outcome_file hsupports hcreate s
  · exact outcome_named (by decide) hsupports hzero hcreate s
  · exact outcome_body hsupports hzero hcreate s

end ParamOf

end HttpDispatch
