import Mathlib.Data.List.Nodup
import HttpDispatch.Proofs.Binding.Negotiated

/-!
# Given and chosen codecs

A handler may name its codec or leave the choice to the client. Two resolvers of replies come of
that, each with a rule of its own: the one that is given a codec asks whether it suits the format of
the query, the other looks for a codec that does, or that suits what is accepted. They agree as far
as both have something to say: on replies that describe themselves, on entities for which the choice
falls on the given codec, and on formats that nobody knows.

* `Codecs.named?_eq_some`: a codec is found by its name, if names are distinct;
* `writePinned_of_choice`: where the choice falls on a codec that writes its own media type;
* `writePinned_of_unknown`, `writeNegotiated_of_unknown`: formats that nobody knows;
* `Wiring.pinned_agrees_with_negotiated`: what this means for the resolvers.
-/

namespace HttpDispatch

variable {σ : Type} {codecs : Codecs} {s : Codec} {e : EntityType} {v : Json.Value} {r : Request}

/-- **A codec is found by its name** if names are distinct. -/
theorem Codecs.named?_eq_some (hnames : (codecs.list.map Codec.name).Nodup) (hs : s ∈ codecs.list) :
    codecs.named? s.name = some s := by
  obtain ⟨k, hk⟩ : ∃ k, codecs.named? s.name = some k :=
    Option.isSome_iff_exists.mp (List.find?_isSome.mpr ⟨s, hs, beq_self_eq_true _⟩)
  have hname : k.name = s.name := by simpa using List.find?_some hk
  rw [hk, List.inj_on_of_nodup_map hnames (List.mem_of_find?_eq_some hk) hs hname]

/-! ### Replies that describe themselves -/

theorem Reply.exists_payload {reply : Reply} (h : ∀ e v, reply ≠ .entity e v) :
    ∃ p, reply.payload? = some p ∧ ∀ (s : Codec) (codecs : Codecs) (r : Request),
      writeNegotiated codecs reply r = .ok p ∧ writePinned s codecs reply r = .ok p := by
  cases reply with
  | entity e v => exact absurd rfl (h e v)
  | _ => exact ⟨_, rfl, fun _ _ _ => ⟨rfl, rfl⟩⟩

/-! ### Entities -/

theorem writeNegotiated_of_ok (h : negotiate codecs e r = .ok s) :
    writeNegotiated codecs (.entity e v) r = writeEntity s e v := by
  rw [writeNegotiated, h]
  rfl

/-- **A given codec writes the entity**, too, if the choice falls on it and it writes its own media
type. -/
theorem writePinned_of_choice {registered : List Codec}
    (h : Choice registered e (codecs.format? r) r.accepted (.ok s))
    (hown : s.writes s.mediaType e = true) :
    writePinned s codecs (.entity e v) r = writeEntity s e v := by
  generalize hformat : codecs.format? r = format at h
  generalize r.accepted = accepted at h
  rw [writePinned, hformat]
  cases h with
  | @format name m _ _ known first =>
    have hwrites : s.writes m e = true := first.holds
    simp [formatType, known, hwrites, bind, Except.bind]
  | accepted => simp [hown, bind, Except.bind]

theorem writePinned_of_unknown {format : String} (h : codecs.format? r = some format)
    (hunknown : MediaType.ofFormat? format = none) :
    writePinned s codecs (.entity e v) r = .error (.unsupported s!"unknown format '{format}'") := by
  simp [writePinned, h, formatType, hunknown, bind, Except.bind]

theorem writeNegotiated_of_unknown {format : String} (h : codecs.format? r = some format)
    (hunknown : MediaType.ofFormat? format = none) :
    writeNegotiated codecs (.entity e v) r =
      .error (.unsupported s!"unknown format '{format}'") := by
  refine writeNegotiated_of_error ?_ v
  rw [negotiate, h]
  simp [codecForFormat, formatType, hunknown, bind, Except.bind]

/-! ### The resolvers -/

namespace Wiring

variable {l : List (Registration σ)}

/-- **A codec that is given and the same codec chosen do the same**, whatever is registered, if the
codecs have distinct names. There is one resolver for handlers that leave the choice to the client
and one for each codec, for handlers that name it:

* a reply that describes itself, as all but entities do, is the same body for both and for every
  request;
* an entity is written by the codec and under its media type, or fails as the codec does, by both, if
  the choice falls on the codec and it writes entities of the type in its own media type; be it that
  the request asks for a format or that it does not;
* a format that nobody knows is the same failure of both. -/
theorem pinned_agrees_with_negotiated
    (hnames : ((l.flatMap Registration.codecs).map Codec.name).Nodup) :
    let codecs := (ofList l).codecs
    ∃ negotiated : ReplyResolver σ,
      (∀ h app, h.codec = none → negotiatingFactory.supports h = true ∧
        negotiatingFactory.create h codecs app = (.ok negotiated, app)) ∧
      ∀ s ∈ l.flatMap Registration.codecs, ∃ pinned : ReplyResolver σ,
        (∀ h app, h.codec = some s.name → pinnedFactory.supports h = true ∧
          pinnedFactory.create h codecs app = (.ok pinned, app)) ∧
        (∀ reply, (∀ e v, reply ≠ .entity e v) → ∃ p, reply.payload? = some p ∧ ∀ r,
          negotiated reply r = .ofExcept (.ok p) ∧ pinned reply r = .ofExcept (.ok p)) ∧
        (∀ e v r, Choice (l.flatMap Registration.codecs) e
            (codecs.formatParam.bind r.queryParam?) r.accepted (.ok s) →
          s.writes s.mediaType e = true →
          negotiated (.entity e v) r = pinned (.entity e v) r ∧
          (∀ data, s.encode v e = .ok data →
            pinned (.entity e v) r = .ofExcept (.ok (.body s.mediaType data))) ∧
          ∀ f, s.encode v e = .error f → pinned (.entity e v) r = .ofExcept
            (.error (.internal s!"failed to serialize {e.simpleName}: {f.message}"))) ∧
        ∀ e v r param format, codecs.formatParam = some param →
          r.queryParam? param = some format → MediaType.ofFormat? format = none →
          negotiated (.entity e v) r =
            .ofExcept (.error (.unsupported s!"unknown format '{format}'")) ∧
          pinned (.entity e v) r =
            .ofExcept (.error (.unsupported s!"unknown format '{format}'")) := by
  intro codecs
  have hlist : codecs.list = byOrder Codec.order (l.flatMap Registration.codecs) := codecs_ofList l
  have hperm : codecs.list.Perm (l.flatMap Registration.codecs) := by
    rw [hlist]
    exact List.mergeSort_perm ..
  have hdistinct : (codecs.list.map Codec.name).Nodup := ((hperm.map _).nodup_iff).mpr hnames
  refine ⟨.ofExcept (writeNegotiated codecs), fun h app hcodec => ⟨?_, rfl⟩, fun s hs =>
    ⟨.ofExcept (writePinned s codecs), fun h app hcodec => ⟨?_, ?_⟩, fun reply hreply => ?_,
      fun e v r hchoice hown => ?_, fun e v r param format hparam hquery hunknown => ?_⟩⟩
  · simp [negotiatingFactory, hcodec]
  · simp [pinnedFactory, hcodec]
  · have hnamed := Codecs.named?_eq_some hdistinct (hperm.mem_iff.mpr hs)
    simp [pinnedFactory, pinnedResolver, hcodec, hnamed]
  · obtain ⟨p, hp, hwrite⟩ := reply.exists_payload hreply
    refine ⟨p, hp, fun r => ?_⟩
    obtain ⟨hnegotiated, hpinned⟩ := hwrite s codecs r
    exact ⟨congrArg Attempt.ofExcept hnegotiated, congrArg Attempt.ofExcept hpinned⟩
  · have hnegotiated := writeNegotiated_of_ok (v := v) ((negotiate_eq_iff hlist).mpr hchoice)
    have hpinned := writePinned_of_choice (v := v) hchoice hown
    refine ⟨congrArg Attempt.ofExcept (hnegotiated.trans hpinned.symm), fun data hdata => ?_,
      fun f hf => ?_⟩
    · refine congrArg Attempt.ofExcept (hpinned.trans ?_)
      rw [writeEntity, hdata]
    · refine congrArg Attempt.ofExcept (hpinned.trans ?_)
      rw [writeEntity, hf]
  · have hformat : codecs.format? r = some format :=
      Codecs.format?_eq_some.mpr ⟨param, hparam, hquery⟩
    exact ⟨congrArg Attempt.ofExcept (writeNegotiated_of_unknown hformat hunknown),
      congrArg Attempt.ofExcept (writePinned_of_unknown hformat hunknown)⟩

/-- JSON that is wanted most is the JSON of a handler that names the codec for it; text that the query
asks for is the text of a handler that names that codec; and neither knows a third format. -/
theorem wanted_json_is_named_json :
    let codecs := (ofList [.codec plainCodec, .defaults] : Wiring Unit).codecs
    let note : Reply := .entity (.ofName "Note") .null
    ∃ negotiated json text : ReplyResolver Unit,
      negotiatingFactory.create noteHandler codecs () = (.ok negotiated, ()) ∧
      pinnedFactory.create { noteHandler with codec := some "json" } codecs () = (.ok json, ()) ∧
      pinnedFactory.create { noteHandler with codec := some "text" } codecs () = (.ok text, ()) ∧
      negotiated note asksForJson = .ofExcept (.ok (.body .json (Utf8.encode "null"))) ∧
      json note asksForJson = .ofExcept (.ok (.body .json (Utf8.encode "null"))) ∧
      negotiated note (asksForFormat "Text") =
        .ofExcept (.ok (.body .plainText (Utf8.encode "null"))) ∧
      text note (asksForFormat "Text") =
        .ofExcept (.ok (.body .plainText (Utf8.encode "null"))) ∧
      negotiated note (asksForFormat "yaml") =
        .ofExcept (.error (.unsupported "unknown format 'yaml'")) ∧
      text note (asksForFormat "yaml") =
        .ofExcept (.error (.unsupported "unknown format 'yaml'")) := by
  intro codecs note
  obtain ⟨negotiated, hnegotiated, hcodecs⟩ :=
    pinned_agrees_with_negotiated (l := ([.codec plainCodec, .defaults] : List (Registration Unit)))
      (by decide)
  have hparam : codecs.formatParam = some "format" := by
    rw [show codecs = (ofList [.codec plainCodec, .defaults]).codecs from rfl, ofList_eq]
    rfl
  obtain ⟨json, hjson, -, hjsonEntity, -⟩ := hcodecs .json (.tail _ (.head _))
  obtain ⟨text, htext, -, htextEntity, hunknown⟩ := hcodecs plainCodec (.head _)
  have hfirst : ∀ (m : MediaType) (c : Codec), [plainCodec, .json].find?
      (fun k => k.writes m (.ofName "Note")) = some c → IsFirst Codec.order [plainCodec, .json]
        (fun k => k.writes m (.ofName "Note")) c := by
    intro m c h
    apply isFirst_of_find?
    rwa [byOrder_of_pairwise (by decide)]
  have hchosen : Choice [plainCodec, .json] (.ofName "Note") none asksForJson.accepted
      (.ok .json) := by
    rw [accepted_asksForJson]
    exact .accepted [] (by simp) (hfirst _ _ rfl)
  obtain ⟨hsame, hsent, -⟩ := hjsonEntity (.ofName "Note") .null asksForJson hchosen (by decide)
  have hformat : codecs.formatParam.bind (asksForFormat "Text").queryParam? = some "Text" := by
    rw [hparam]
    decide +kernel
  obtain ⟨hsame', hsent', -⟩ := htextEntity (.ofName "Note") .null (asksForFormat "Text")
    (by rw [hformat]; exact .format (m := .plainText) (by decide +kernel) (hfirst _ _ rfl))
    (by decide)
  obtain ⟨hno, hno'⟩ := hunknown (.ofName "Note") .null (asksForFormat "yaml") "format" "yaml"
    hparam (by decide +kernel) (by decide +kernel)
  exact ⟨negotiated, json, text, (hnegotiated noteHandler () rfl).2, (hjson _ () rfl).2,
    (htext _ () rfl).2, hsame.trans (hsent _ rfl), hsent _ rfl, hsame'.trans (hsent' _ rfl),
    hsent' _ rfl, hno, hno'⟩

end Wiring

end HttpDispatch
