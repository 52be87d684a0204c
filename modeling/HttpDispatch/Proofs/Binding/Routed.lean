import HttpDispatch.Pipeline.Route
import HttpDispatch.Proofs.Binding.Negotiated
import HttpDispatch.Proofs.Binding.Soundness
import HttpDispatch.Proofs.Routing.Selection

/-!
# Routed JSON

Whether a request is of a route's media types is asked twice: by the mapping, when the route is
selected, and by the codecs, when its body is read and its reply is written. A mapping asks whether
`application/json` covers the declared type of the body and is compatible with something that is
accepted; without a declared type the body counts as bytes of no known type. The codec for JSON asks
by `Codec.isJson`, and takes a body without a declared type for JSON.

For a route that reads and writes nothing but `application/json` the two agree: what is routed is
served.

* `Mapping.contentType_of_capture`, `Mapping.accepted_of_capture`: what a request says that such a
  mapping is for;
* `answer_of_entityBody`, `writeNegotiated_json`, `writePinned_json`: what the codec for JSON makes
  of it;
* `ParamOf.Raises`: a bean fails on its own account;
* `Wiring.routed_json_is_served`: a routed request, all the way from the route to the reply.
-/

namespace HttpDispatch

variable {σ : Type}

/-! ### What is routed -/

namespace MediaType

variable {m : MediaType}

theorem compatible_comm (a b : MediaType) : a.compatible b = b.compatible a := Bool.or_comm _ _

end MediaType

theorem Codec.isJson_of_includes {m : MediaType} (h : MediaType.json.includes m) : isJson m := by
  rw [isJson, MediaType.compatible, h, Bool.or_true, Bool.true_or]

theorem Codec.isJson_of_compatible {m : MediaType} (h : MediaType.json.compatible m) :
    isJson m := by
  rw [isJson, MediaType.compatible_comm, h, Bool.true_or]

namespace Mapping

variable {m : Mapping} {r : Request} {v : Variables}

theorem media_of_capture (h : m.capture r = some v) :
    m.readsBody r = true ∧ m.isAcceptable r = true := by
  unfold capture at h
  split at h
  · obtain ⟨-, hmedia⟩ := Option.filter_eq_some_iff.mp h
    exact (Bool.and_eq_true _ _).mp hmedia
  · cases h

/-- **A body that is routed as JSON** is declared to be JSON: a body that is not declared, or not
by a media type, counts as something else. -/
theorem contentType_of_capture (hconsumes : m.consumes = [.json]) (h : m.capture r = some v) :
    ∃ t, r.contentType? = some t ∧ Codec.isJson t = true := by
  have hreads := (media_of_capture h).1
  simp only [readsBody, hconsumes, List.isEmpty_cons, Bool.false_or, List.any_cons, List.any_nil,
    Bool.or_false] at hreads
  cases htype : r.contentType? with
  | none =>
    rw [htype] at hreads
    exact absurd hreads (by decide)
  | some t =>
    rw [htype] at hreads
    exact ⟨t, rfl, Codec.isJson_of_includes hreads⟩

/-- **A client to whom JSON is routed** accepts it. -/
theorem accepted_of_capture (hproduces : m.produces = [.json]) (h : m.capture r = some v) :
    ∃ a ∈ r.accepted, Codec.isJson a = true := by
  have hacceptable := (media_of_capture h).2
  simp only [isAcceptable, hproduces, List.isEmpty_cons, Bool.false_or, List.any_cons,
    List.any_nil, Bool.or_false, List.any_eq_true] at hacceptable
  obtain ⟨a, ha, hjson⟩ := hacceptable
  exact ⟨a, ha, Codec.isJson_of_compatible hjson⟩

end Mapping

/-- **A route for JSON**: it reads and writes `application/json` and nothing else, by a handler. -/
structure Route.IsForJson (route : Route σ) (h : Handler σ) : Prop where
  consumes : route.mapping.consumes = [.json]
  produces : route.mapping.produces = [.json]
  action : route.action = .handler h

/-! ### What is read and written -/

section Json

variable {format : Option String} {e : EntityType} {r : Request} {m : MediaType}

theorem Codecs.reader?_json (h : Codec.isJson m = true) :
    Codecs.reader? ⟨[.json], format⟩ m e = some .json := by
  simp [reader?, Codec.json, h]

theorem Codecs.writer?_json (h : Codec.isJson m = true) :
    Codecs.writer? ⟨[.json], format⟩ m e = some .json := by
  simp [writer?, Codec.json, h]

theorem Codecs.eq_json_of_writer? {c : Codec}
    (h : Codecs.writer? ⟨[.json], format⟩ m e = some c) : c = .json :=
  List.mem_singleton.mp (List.mem_of_find?_eq_some h)

theorem Fallback.answer_of_absent {fallback : Fallback} {f : Failure}
    (h : fallback.absent = .error f) : f.answer = .badRequest := by
  unfold absent at h
  split at h
  · cases h
  · cases h
    rfl

/-- **A body that is declared to be JSON** is read or is the client's fault. -/
theorem answer_of_entityBody {fallback : Fallback} {f : Failure} (htype : r.contentType? = some m)
    (hjson : Codec.isJson m = true)
    (h : entityBody e ⟨[.json], format⟩ fallback r = .error f) : f.answer = .badRequest := by
  unfold entityBody at h
  split at h
  · exact Fallback.answer_of_absent h
  · dsimp only at h
    rw [htype, Option.getD_some, Codecs.reader?_json hjson] at h
    dsimp only at h
    cases hread : Codec.json.decode r.body e with
    | error fault =>
      rw [hread] at h
      cases h
      rfl
    | ok v =>
      rw [hread] at h
      have h : (e.decode v).mapError malformedBody = .error f := h
      cases hdecode : e.decode v with
      | error fault =>
        rw [hdecode] at h
        cases h
        rfl
      | ok a =>
        rw [hdecode] at h
        cases h

/-- The choice among what is accepted is JSON as soon as JSON is among it. -/
theorem codecForAccept_json {accepted : List MediaType}
    (h : ∃ a ∈ accepted, Codec.isJson a = true) :
    codecForAccept ⟨[.json], format⟩ e accepted = .ok .json := by
  obtain ⟨a, ha, hjson⟩ := h
  unfold codecForAccept
  cases hfind : accepted.findSome? fun m => Codecs.writer? ⟨[.json], format⟩ m e with
  | none =>
    have hnone := List.findSome?_eq_none_iff.mp hfind a ha
    rw [Codecs.writer?_json hjson] at hnone
    cases hnone
  | some c =>
    obtain ⟨b, -, hb⟩ := List.exists_of_findSome?_eq_some hfind
    rw [Codecs.eq_json_of_writer? hb]

/-- **An entity for a client who accepts JSON** is sent as JSON, where the client chooses. -/
theorem writeNegotiated_json (hformat : Codecs.format? ⟨[.json], format⟩ r = none)
    (h : ∃ a ∈ r.accepted, Codec.isJson a = true) (v : Json.Value) :
    writeNegotiated ⟨[.json], format⟩ (.entity e v) r =
      .ok (.body .json (Utf8.encode v.render)) := by
  have hnegotiate : negotiate ⟨[.json], format⟩ e r = .ok .json := by
    rw [negotiate, hformat]
    exact codecForAccept_json h
  rw [writeNegotiated, hnegotiate]
  rfl

theorem writePinned_json (hformat : Codecs.format? ⟨[.json], format⟩ r = none) (v : Json.Value) :
    writePinned .json ⟨[.json], format⟩ (.entity e v) r =
      .ok (.body .json (Utf8.encode v.render)) := by
  unfold writePinned
  rw [hformat]
  rfl

end Json

/-! ### What fails on its own account -/

namespace ParamOf

/-- **A bean raises a failure** when it is assembled: the bean of the parameter itself or one in a
field of it. -/
inductive Raises (r : Request) : Param σ → Failure → Prop where
  | assembly {p e} {b : Bean σ} {args s} (type : p.type = .bean b)
    (raised : ((b.assemble r args).run.run s).1 = some (.error (.failed e))) : Raises r p e
  | field {p e} {b : Bean σ} {q : Param σ} (type : p.type = .bean b) (field : q ∈ b.fields)
    (raises : Raises r q e) : Raises r p e

variable {codecs : Codecs} {r : Request} {p : Param σ} {f : Failure}

/-- **Where some codec reads what the client sends**, only a bean answers that nobody does. -/
theorem raises_of_blame
    (hreads : ∀ e, ∃ k ∈ codecs.list, k.reads (r.contentType?.getD .json) e = true)
    (hanswer : f.answer = .unsupportedMediaType) (h : p.Blame codecs r f) : p.Raises r f := by
  induction h with
  | client answer =>
    rw [answer] at hanswer
    exact absurd hanswer (by decide)
  | @unread p f e _ _ _ _ nobody =>
    obtain ⟨k, hk, hreads⟩ := hreads e
    rw [nobody k hk] at hreads
    cases hreads
  | assembly type raised => exact .assembly type raised
  | field type field _ ih => exact .field type field (ih hanswer)

end ParamOf

/-! ### What is bound -/

namespace Wiring

variable {w : Wiring σ} {handler : String} {format : Option String} {h : Handler σ}
  {r : Request} {app app' : σ} {b : Bound σ}

theorem exists_of_bindFields : ∀ {params : List (Param σ)} {index : Nat}
    {resolvers : List (Resolver σ)} {app app' : σ} {i : Nat} {p : Param σ},
    (w.bindFields handler index params).run.run app = (.ok resolvers, app') →
    params[i]? = some p →
    ∃ f mid mid', resolvers[i]? = some f ∧
      (w.bindParam handler (index + i) p).run.run mid = (.ok f, mid')
  | [], index, resolvers, app, app', i, p, _, hp => by cases hp
  | q :: params, index, resolvers, app, app', i, p, h, hp => by
    rw [bindFields] at h
    obtain ⟨f, mid, hf, h⟩ := Binder.exists_of_run_bind h
    obtain ⟨rest, app₂, hrest, h⟩ := Binder.exists_of_run_bind h
    cases h
    cases i with
    | zero =>
      cases hp
      exact ⟨f, app, mid, rfl, hf⟩
    | succ i =>
      obtain ⟨g, m, m', hg, hrun⟩ := exists_of_bindFields hrest hp
      exact ⟨g, m, m', hg, by rwa [Nat.add_right_comm, Nat.add_assoc] at hrun⟩

theorem exists_of_bindParam_body {p : Param σ} {e : EntityType} {index : Nat} {f : Resolver σ}
    (hsource : p.source = .body) (htype : p.type = .entity e)
    (hbind : ((Wiring.default format).bindParam handler index p).run.run app = (.ok f, app')) :
    ∃ fallback, f = advised [] fun r =>
      Attempt.ofExcept (entityBody e ⟨[.json], format⟩ fallback r) := by
  obtain ⟨i, name, source, type, required, default⟩ := p
  cases hsource
  cases htype
  rw [default_eq] at hbind
  obtain ⟨inner, mid, hinner, hbind⟩ := Binder.exists_of_run_bind hbind
  cases hbind
  obtain ⟨fallback, -, hf⟩ := bind_eq_ok_iff.mp (congrArg Prod.fst hinner)
  dsimp only [placed] at hf
  split at hf
  · cases hf
    exact ⟨fallback, rfl⟩
  · cases hf

/-- **Replies are written as the client chooses**, or by the codec that the handler names, which can
only be the one for JSON. -/
theorem writer_of_bindReply {reply : ReplyResolver σ}
    (hbind : ((Wiring.default format).bindReply h).run.run app = (.ok reply, app')) :
    reply = advisedReply [] (.ofExcept (writeNegotiated ⟨[.json], format⟩)) ∨
      reply = advisedReply [] (.ofExcept (writePinned .json ⟨[.json], format⟩)) := by
  rw [default_eq] at hbind
  unfold bindReply at hbind
  cases hcodec : h.codec with
  | none =>
    simp only [pinnedFactory, negotiatingFactory, hcodec, List.find?_cons, Option.isSome_none,
      Option.isNone_none] at hbind
    cases hbind
    exact .inl rfl
  | some name =>
    simp only [pinnedFactory, hcodec, List.find?_cons, Option.isSome_some] at hbind
    obtain ⟨inner, mid, hinner, hbind⟩ := Binder.exists_of_run_bind hbind
    cases hbind
    have hinner : pinnedResolver h ⟨[.json], format⟩ = .ok inner := congrArg Prod.fst hinner
    unfold pinnedResolver at hinner
    dsimp only at hinner
    split at hinner
    · next codec hnamed =>
      cases hinner
      rw [List.mem_singleton.mp (List.mem_of_find?_eq_some hnamed)]
      exact .inr rfl
    · cases hinner

/-- **Replies that are entities** are sent as JSON, where JSON is accepted and no format is asked
for. -/
theorem run_reply_json {reply : ReplyResolver σ}
    (hbind : ((Wiring.default format).bindReply h).run.run app = (.ok reply, app'))
    (hformat : Codecs.format? ⟨[.json], format⟩ r = none)
    (haccepted : ∃ a ∈ r.accepted, Codec.isJson a = true) (e : EntityType) (v : Json.Value)
    (s : Scene σ) :
    (reply (.entity e v) r).run.run s = (some (.ok (.body .json (Utf8.encode v.render))), s) := by
  rcases writer_of_bindReply hbind with rfl | rfl
  · show (Attempt.ofExcept (writeNegotiated _ (.entity e v) r) : Attempt σ Payload).run.run s = _
    rw [writeNegotiated_json hformat haccepted]
    rfl
  · show (Attempt.ofExcept (writePinned _ _ (.entity e v) r) : Attempt σ Payload).run.run s = _
    rw [writePinned_json hformat]
    rfl

theorem blame_of_resolveAll {params : List (Param σ)} {resolvers : List (Resolver σ)}
    {s : Scene σ} {f : Failure} (hw : w.IsBuiltIn) (htyped : ∀ p ∈ params, p.type.Typed)
    (hbind : (w.bindFields handler 0 params).run.run app = (.ok resolvers, app'))
    (hstop : ((resolveAll resolvers r).run.run s).1 = some (.error f)) :
    ∃ p ∈ params, p.Blame w.codecs r f := by
  obtain ⟨t, hall⟩ : ∃ t, (resolveAll resolvers r).run.run s = (some (.error f), t) :=
    ⟨_, Prod.ext hstop rfl⟩
  obtain ⟨i, g, args, mid, hi, -, hfails⟩ :=
    (run_resolveAll_eq_stop_iff (e := some f)).mp hall
  obtain ⟨p, hp, hresolved⟩ := resolvedBy_bindFields
    (fun q hq => resolvedBy_bindParam hw (htyped q hq) rfl) hbind g (List.mem_of_getElem? hi)
  have hout := hresolved r mid
  rw [hfails] at hout
  exact ⟨p, hp, hout⟩

/-- **Routing and the codecs agree on JSON.** A route reads and writes `application/json` and
nothing else, and its handler is bound by the built-in factories. Whatever a request says of its
body and of what it accepts, if the route is selected for it, then

* a parameter for an entity in the body is resolved, and where that fails, the request was bad: its
  media type is never refused;
* no parameter at all fails for a media type that nobody reads, unless a bean raises that failure
  itself;
* an entity is sent as JSON to a client whose query asks for no format. -/
theorem routed_json_is_served {routes : List (Route σ)} {selected : Selection (Route σ)}
    (hselect : select Route.mapping r routes = some selected)
    (hroute : selected.entry.IsForJson h)
    (hbind : ((Wiring.default format).bind h).run.run app = (.ok b, app')) :
    (∀ (i : Nat) (p : Param σ) (e : EntityType), h.params[i]? = some p → p.source = .body →
      p.type = .entity e → ∃ f x, b.args[i]? = some f ∧ (∀ s, (f r).run.run s = (some x, s)) ∧
        ∀ failure, x = .error failure → failure.answer = .badRequest) ∧
    ((∀ p ∈ h.params, p.type.Typed) → ∀ (s : Scene σ) (failure : Failure),
      ((resolveAll b.args r).run.run s).1 = some (.error failure) →
      failure.answer = .unsupportedMediaType → ∃ p ∈ h.params, p.Raises r failure) ∧
    ((∀ param, format = some param → r.queryParam? param = none) →
      ∀ (e : EntityType) (v : Json.Value) (s : Scene σ), (b.reply (.entity e v) r).run.run s =
        (some (.ok (.body .json (Utf8.encode v.render))), s)) := by
  have hcapture := (select_eq_some_iff.mp hselect).pathVars
  obtain ⟨t, htype, hjson⟩ := Mapping.contentType_of_capture hroute.consumes hcapture
  have haccepted := Mapping.accepted_of_capture hroute.produces hcapture
  obtain ⟨mid, hargs, hreply⟩ := exists_of_bind hbind
  refine ⟨fun i p e hp hsource hentity => ?_, fun htyped s failure hstop hanswer => ?_,
    fun hformat e v s => run_reply_json hreply (Codecs.format?_eq_none.mpr hformat) haccepted e v s⟩
  · obtain ⟨f, app₁, app₂, hf, hparam⟩ := exists_of_bindFields hargs hp
    obtain ⟨fallback, rfl⟩ := exists_of_bindParam_body hsource hentity hparam
    refine ⟨_, entityBody e ⟨[.json], format⟩ fallback r, hf, fun s => ?_, fun failure hfails => ?_⟩
    · rw [run_advised_nil]
      rfl
    · exact answer_of_entityBody htype hjson hfails
  · have hbuiltin : (Wiring.default format : Wiring σ).IsBuiltIn :=
      isBuiltIn_ofList fun x hx => by
        simp only [List.mem_cons, List.not_mem_nil, or_false] at hx
        rcases hx with rfl | rfl <;> trivial
    obtain ⟨p, hp, hblame⟩ := blame_of_resolveAll hbuiltin htyped hargs hstop
    refine ⟨p, hp, ParamOf.raises_of_blame (fun e => ?_) hanswer hblame⟩
    rw [default_eq, htype, Option.getD_some]
    exact ⟨.json, List.mem_singleton_self _, hjson⟩

/-- A handler that is given a note and gives one back. -/
def noteTaker : Handler Unit where
  controller := "Notes"
  name := "put"
  params := [.of "note" .body (.entity (.ofShape .text))]
  returns := "Note"
  codec := none
  call _ _ := pure (.entity (.ofName "Note") .null)

/-- The route of the notes. -/
def noteRoute : Route Unit where
  mapping := ((Mapping.of "/notes").reading .json).writing .json
  action := .handler noteTaker
  onError := none
  onComplete := none

/-- A request with a note, in a media type with a parameter and in capitals, that accepts JSON by a
range alone, and something that is no media type. -/
def sendsNote : Request where
  method := .put
  path := "/notes"
  query := some "sort=format"
  version := 1
  fields :=
    ⟨[("Content-Type", "Application/JSON; charset=utf-8"),
      ("Accept", "text/html, application/*;q=0.5"), ("accept", "json")]⟩
  body := Utf8.encode "\"milk\""

theorem accepted_sendsNote :
    sendsNote.accepted = [⟨"text", "html", []⟩, ⟨"application", "*", [("q", "0.5")]⟩] := by
  have helements : sendsNote.fields.elements "accept" =
      ["text/html", "application/*;q=0.5", "json"] := by
    decide +kernel
  have hentries : (["text/html", "application/*;q=0.5", "json"].filterMap
      MediaType.ofText?).filter Accept.isWanted =
        [⟨"text", "html", []⟩, ⟨"application", "*", [("q", "0.5")]⟩] := by
    decide +kernel
  rw [Request.accepted, Accept.ofFields, helements]
  show Accept.ofEntries _ = _
  rw [Accept.ofEntries, hentries]
  exact List.mergeSort_of_pairwise (by decide +kernel)

theorem select_sendsNote :
    select Route.mapping sendsNote [noteRoute] = some ⟨noteRoute, 0, ⟨[]⟩⟩ := by
  have hacceptable : noteRoute.mapping.isAcceptable sendsNote = true := by
    rw [Mapping.isAcceptable, accepted_sendsNote]
    decide +kernel
  have hcapture : noteRoute.mapping.capture sendsNote = some ⟨[]⟩ := by
    have hpath : noteRoute.mapping.template.capture sendsNote.path = some ⟨[]⟩ := by decide +kernel
    have hreads : noteRoute.mapping.readsBody sendsNote = true := by decide +kernel
    rw [Mapping.capture, hpath, hreads, hacceptable]
    rfl
  have hcandidates : candidates Route.mapping sendsNote 0 [noteRoute] = [⟨noteRoute, 0, ⟨[]⟩⟩] := by
    rw [candidates, hcapture]
    rfl
  rw [select, hcandidates]
  rfl

/-- The note is taken, and one is sent back. -/
theorem note_is_taken :
    ∃ b, ((Wiring.default (some "format")).bind noteTaker).run.run () = (.ok b, ()) ∧
      (∃ f x, b.args[0]? = some f ∧ (∀ s, (f sendsNote).run.run s = (some x, s)) ∧
        ∀ failure, x = .error failure → failure.answer = .badRequest) ∧
      ∀ s, (b.reply (.entity (.ofName "Note") .null) sendsNote).run.run s =
        (some (.ok (.body .json (Utf8.encode "null"))), s) := by
  obtain ⟨b, hb⟩ :
      ∃ b, ((Wiring.default (some "format")).bind noteTaker).run.run () = (.ok b, ()) := by
    rw [default_eq]
    exact ⟨_, rfl⟩
  obtain ⟨hbody, -, hreply⟩ := routed_json_is_served select_sendsNote ⟨rfl, rfl, rfl⟩ hb
  have hformat : ∀ param, some "format" = some param → sendsNote.queryParam? param = none := by
    rintro _ ⟨⟩
    decide +kernel
  exact ⟨b, hb, hbody 0 _ _ rfl rfl rfl, hreply hformat _ .null⟩

end Wiring

end HttpDispatch
