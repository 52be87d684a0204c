import HttpDispatch.Proofs.Binding.Order
import HttpDispatch.Proofs.Message.Committed
import HttpDispatch.Proofs.Text.Elements

/-!
# The choice of a codec

Where a handler names no codec, the client chooses. A format in the query decides alone: it leads to
the first codec that writes it, or the operation is unsupported. Otherwise the accepted media types
are tried in their order, each on the codecs in theirs, and the first pair that fits is taken.

* `Choice`: what registered codecs, a format and accepted media types lead to;
* `negotiate_eq_iff`: negotiation makes that choice and no other;
* `Accept.ofFields_of_blank`: a client that says nothing accepts everything;
* `Wiring.serves_choice`: what the resolver of such a handler's replies does.
-/

namespace HttpDispatch

variable {σ : Type}

/-! ### The choice -/

section Choice

variable {registered : List Codec} {codecs : Codecs} {e : EntityType} {m : MediaType} {c : Codec}
variable {x : Except Failure Codec}

/-- **What a format and accepted media types lead to**, where codecs are registered. A format
decides alone: then nothing is said about what is accepted. -/
inductive Choice (registered : List Codec) (e : EntityType) :
    Option String → List MediaType → Except Failure Codec → Prop where
  | format {name : String} {m : MediaType} {c : Codec} {accepted : List MediaType}
      (known : MediaType.ofFormat? name = some m)
      (first : IsFirst Codec.order registered (fun k => k.writes m e) c) :
      Choice registered e (some name) accepted (.ok c)
  | unknown {name : String} {accepted : List MediaType}
      (unknown : MediaType.ofFormat? name = none) :
      Choice registered e (some name) accepted
        (.error (.unsupported s!"unknown format '{name}'"))
  | unwritten {name : String} {m : MediaType} {accepted : List MediaType}
      (known : MediaType.ofFormat? name = some m)
      (nobody : ∀ k ∈ registered, k.writes m e = false) :
      Choice registered e (some name) accepted
        (.error (.unsupported s!"no serializer writes {e.simpleName} as '{m.essence}'"))
  | accepted (earlier : List MediaType) {later : List MediaType} {m : MediaType} {c : Codec}
      (nobody : ∀ n ∈ earlier, ∀ k ∈ registered, k.writes n e = false)
      (first : IsFirst Codec.order registered (fun k => k.writes m e) c) :
      Choice registered e none (earlier ++ m :: later) (.ok c)
  | refused {accepted : List MediaType}
      (nobody : ∀ m ∈ accepted, ∀ k ∈ registered, k.writes m e = false) :
      Choice registered e none accepted
        (.error (.notAcceptable (s!"cannot produce {e.simpleName} for Accept [" ++
          ", ".intercalate (accepted.map MediaType.render) ++ "]")))

theorem Codecs.format?_eq_some {r : Request} {name : String} : codecs.format? r = some name ↔
    ∃ param, codecs.formatParam = some param ∧ r.queryParam? param = some name :=
  Option.bind_eq_some_iff

theorem Codecs.format?_eq_none {r : Request} : codecs.format? r = none ↔
    ∀ param, codecs.formatParam = some param → r.queryParam? param = none :=
  Option.bind_eq_none_iff

variable (hlist : codecs.list = byOrder Codec.order registered)
include hlist

theorem writer?_eq_some :
    codecs.writer? m e = some c ↔ IsFirst Codec.order registered (fun k => k.writes m e) c := by
  rw [Codecs.writer?, hlist, find?_byOrder_eq_some]

theorem writer?_eq_none :
    codecs.writer? m e = none ↔ ∀ k ∈ registered, k.writes m e = false := by
  rw [Codecs.writer?, hlist, find?_byOrder_eq_none]

theorem codecForFormat_eq_of_choice {name : String} {accepted : List MediaType}
    (h : Choice registered e (some name) accepted x) : codecForFormat codecs e name = x := by
  cases h with
  | format known first =>
    have hwriter := (writer?_eq_some hlist).mpr first
    simp [codecForFormat, formatType, known, hwriter, bind, Except.bind]
  | unknown unknown => simp [codecForFormat, formatType, unknown, bind, Except.bind]
  | unwritten known nobody =>
    have hwriter := (writer?_eq_none hlist).mpr nobody
    simp [codecForFormat, formatType, known, hwriter, bind, Except.bind]

/-- The accepted media types lead to the first codec that writes the first of them that any codec
writes. -/
theorem codecForAccept_eq_of_choice {accepted : List MediaType}
    (h : Choice registered e none accepted x) : codecForAccept codecs e accepted = x := by
  cases h with
  | @accepted earlier later m c nobody first =>
    have hnone : ∀ n ∈ earlier, codecs.writer? n e = none := by
      intro n hn
      exact (writer?_eq_none hlist).mpr (nobody n hn)
    have hfind : (earlier ++ m :: later).findSome? (fun m => codecs.writer? m e) = some c :=
      List.findSome?_eq_some_iff.mpr
        ⟨earlier, m, later, rfl, (writer?_eq_some hlist).mpr first, hnone⟩
    rw [codecForAccept, hfind]
  | refused nobody =>
    have hfind : accepted.findSome? (fun m => codecs.writer? m e) = none :=
      List.findSome?_eq_none_iff.mpr fun m hm => (writer?_eq_none hlist).mpr (nobody m hm)
    rw [codecForAccept, hfind]
    rfl

theorem negotiate_eq_of_choice {r : Request}
    (h : Choice registered e (codecs.format? r) r.accepted x) : negotiate codecs e r = x := by
  cases hformat : codecs.format? r with
  | some name =>
    rw [hformat] at h
    rw [negotiate, hformat]
    exact codecForFormat_eq_of_choice hlist h
  | none =>
    rw [hformat] at h
    rw [negotiate, hformat]
    exact codecForAccept_eq_of_choice hlist h

theorem exists_choice (format : Option String) (accepted : List MediaType) :
    ∃ x, Choice registered e format accepted x := by
  cases format with
  | some name =>
    cases hknown : MediaType.ofFormat? name with
    | none => exact ⟨_, .unknown hknown⟩
    | some m =>
      cases hwriter : codecs.writer? m e with
      | none => exact ⟨_, .unwritten hknown ((writer?_eq_none hlist).mp hwriter)⟩
      | some c => exact ⟨_, .format hknown ((writer?_eq_some hlist).mp hwriter)⟩
  | none =>
    cases hfind : accepted.findSome? fun m => codecs.writer? m e with
    | none =>
      refine ⟨_, .refused fun m hm => ?_⟩
      exact (writer?_eq_none hlist).mp (List.findSome?_eq_none_iff.mp hfind m hm)
    | some c =>
      obtain ⟨earlier, m, later, rfl, hwriter, hearlier⟩ := List.findSome?_eq_some_iff.mp hfind
      refine ⟨_, .accepted _ (fun n hn => ?_) ((writer?_eq_some hlist).mp hwriter)⟩
      exact (writer?_eq_none hlist).mp (hearlier n hn)

/-- **Negotiation makes the choice** that format and media types lead to, and no other. -/
theorem negotiate_eq_iff {r : Request} :
    negotiate codecs e r = x ↔ Choice registered e (codecs.format? r) r.accepted x := by
  constructor
  · rintro rfl
    obtain ⟨y, hy⟩ := exists_choice (e := e) hlist (codecs.format? r) r.accepted
    rw [negotiate_eq_of_choice hlist hy]
    exact hy
  · exact negotiate_eq_of_choice hlist

end Choice

/-- **An entity becomes a body** exactly where a codec is found that encodes it; the content type is
the codec's media type. -/
theorem writeNegotiated_eq_ok {codecs : Codecs} {e : EntityType} {v : Json.Value} {r : Request}
    {p : Payload} : writeNegotiated codecs (.entity e v) r = .ok p ↔
      ∃ c data, negotiate codecs e r = .ok c ∧ c.encode v e = .ok data ∧
        p = .body c.mediaType data := by
  rw [writeNegotiated]
  cases negotiate codecs e r with
  | error f => simp [bind, Except.bind]
  | ok c =>
    cases hencode : c.encode v e with
    | error f => simp [bind, Except.bind, writeEntity, hencode]
    | ok data => simp [bind, Except.bind, writeEntity, hencode, eq_comm]

theorem writeNegotiated_of_error {codecs : Codecs} {e : EntityType} {r : Request} {f : Failure}
    (h : negotiate codecs e r = .error f) (v : Json.Value) :
    writeNegotiated codecs (.entity e v) r = .error f := by
  rw [writeNegotiated, h]
  rfl

/-! ### Clients that say nothing -/

/-- **A client that says nothing** accepts everything. -/
theorem Accept.ofFields_of_blank {h : Fields}
    (hblank : ∀ value ∈ h.getAll "accept", ∀ c ∈ value.toList, Text.isBlank c = true ∨ c = ',') :
    Accept.ofFields h = [.all] := by
  have helements : h.elements "accept" = [] := by
    refine List.flatMap_eq_nil_iff.mpr fun value hvalue => ?_
    exact Text.elements_of_blank (hblank value hvalue)
  rw [ofFields, helements]

theorem Accept.ofFields_set_all (h : Fields) :
    Accept.ofFields (h.set "Accept" "*/*") = [.all] := by
  have hvalues : (h.set "Accept" "*/*").getAll "accept" = ["*/*"] :=
    Fields.getAll_set h "Accept" "*/*"
  have helements : (h.set "Accept" "*/*").elements "accept" = ["*/*"] := by
    rw [Fields.elements, hvalues]
    decide
  rw [ofFields, helements]
  decide +kernel

/-! ### The handler's resolver -/

namespace Wiring

variable {l : List (Registration σ)} {h : Handler σ}

/-- Where no other registered factory supports a handler without a codec, the client chooses. -/
theorem find?_replyFactories
    (hserved : .defaults ∈ l ∨ .replyFactory negotiatingFactory ∈ l)
    (hothers : ∀ f, .replyFactory f ∈ l → f.supports h = true → f = negotiatingFactory)
    (hcodec : h.codec = none) :
    ((ofList l).replyFactories.find? fun f => f.supports h) = some negotiatingFactory := by
  have hsupports : (negotiatingFactory : ReplyFactory σ).supports h = true := by
    simp [negotiatingFactory, hcodec]
  have hmem : negotiatingFactory ∈ l.flatMap Registration.replyFactories := by
    rcases hserved with hdefault | hown
    · exact List.mem_flatMap.mpr ⟨_, hdefault, by simp [Registration.replyFactories]⟩
    · exact List.mem_flatMap.mpr ⟨_, hown, by simp [Registration.replyFactories]⟩
  rw [ofList_eq]
  cases hfind : (byOrder ReplyFactory.order
      (l.flatMap Registration.replyFactories)).find? fun f => f.supports h with
  | none =>
    have hno := find?_byOrder_eq_none.mp hfind _ hmem
    rw [hsupports] at hno
    cases hno
  | some f =>
    have hfirst := isFirst_of_find? hfind
    obtain ⟨x, hx, hf⟩ := List.mem_flatMap.mp hfirst.mem
    have hholds := hfirst.holds
    cases x with
    | defaults =>
      simp only [Registration.replyFactories, List.mem_cons, List.not_mem_nil, or_false] at hf
      rcases hf with rfl | rfl
      · simp [pinnedFactory, hcodec] at hholds
      · rfl
    | replyFactory g =>
      rw [List.mem_singleton.mp hf] at hholds ⊢
      rw [hothers g hx hholds]
    | _ => cases hf

/-- **Where a handler names no codec**, the choice is the client's, whatever is registered besides.
The query parameter that names a format is the one that was set last:

* if the query has a value for it, the choice among all registered codecs is by that format, and the
  fields of the request do not matter;
* otherwise it is by what is accepted;
* an entity is sent as the chosen codec writes it and under its media type, or fails as the choice
  does;
* a client that says nothing accepts everything. -/
theorem serves_choice
    (hserved : .defaults ∈ l ∨ .replyFactory negotiatingFactory ∈ l)
    (hothers : ∀ f, .replyFactory f ∈ l → f.supports h = true → f = negotiatingFactory)
    (hcodec : h.codec = none) (app : σ) :
    let codecs := (ofList l).codecs
    ((ofList l).bindReply h).run.run app =
      (.ok (advisedReply ((ofList l).replyAdvices.filter fun a => a.supports h)
        (.ofExcept (writeNegotiated codecs))), app) ∧
    codecs.formatParam = (l.filterMap Registration.formatParam?).getLastD (some "format") ∧
    ∀ (e : EntityType) (v : Json.Value) (r : Request),
      (∀ param name, codecs.formatParam = some param → r.queryParam? param = some name →
        (∀ x, negotiate codecs e r = x ↔
          Choice (l.flatMap Registration.codecs) e (some name) r.accepted x) ∧
        ∀ fields, writeNegotiated codecs (.entity e v) { r with fields } =
          writeNegotiated codecs (.entity e v) r) ∧
      ((∀ param, codecs.formatParam = some param → r.queryParam? param = none) →
        ∀ x, negotiate codecs e r = x ↔
          Choice (l.flatMap Registration.codecs) e none r.accepted x) ∧
      (∀ p, writeNegotiated codecs (.entity e v) r = .ok p ↔
        ∃ c data, negotiate codecs e r = .ok c ∧ c.encode v e = .ok data ∧
          p = .body c.mediaType data) ∧
      (∀ f, negotiate codecs e r = .error f → writeNegotiated codecs (.entity e v) r = .error f) ∧
      ((∀ value ∈ r.fields.getAll "accept", ∀ c ∈ value.toList, Text.isBlank c = true ∨ c = ',') →
        writeNegotiated codecs (.entity e v) r =
          writeNegotiated codecs (.entity e v)
            { r with fields := r.fields.set "Accept" "*/*" }) := by
  intro codecs
  have hlist : codecs.list = byOrder Codec.order (l.flatMap Registration.codecs) := codecs_ofList l
  refine ⟨?_, by rw [show codecs = (ofList l).codecs from rfl, ofList_eq],
    fun e v r => ⟨fun param name hparam hname => ⟨fun x => ?_, fun fields => ?_⟩,
      fun hno x => ?_, fun p => writeNegotiated_eq_ok,
      fun f hf => writeNegotiated_of_error hf v, fun hblank => ?_⟩⟩
  · rw [bindReply, find?_replyFactories hserved hothers hcodec]
    rfl
  · rw [negotiate_eq_iff hlist, Codecs.format?_eq_some.mpr ⟨param, hparam, hname⟩]
  · have hformat : codecs.format? r = some name :=
      Codecs.format?_eq_some.mpr ⟨param, hparam, hname⟩
    have hformat' : codecs.format? { r with fields } = some name := hformat
    simp only [writeNegotiated, negotiate, hformat, hformat']
  · rw [negotiate_eq_iff hlist, Codecs.format?_eq_none.mpr hno]
  · have hsame : r.accepted = ({ r with fields := r.fields.set "Accept" "*/*" } : Request).accepted :=
      (Accept.ofFields_of_blank hblank).trans (Accept.ofFields_set_all _).symm
    have hformat : codecs.format? r =
        codecs.format? { r with fields := r.fields.set "Accept" "*/*" } := rfl
    simp only [writeNegotiated, negotiate, hsame, hformat]

/-- A codec for text. -/
def plainCodec : Codec where
  name := "text"
  mediaType := .plainText
  order := 0
  reads _ _ := false
  writes m _ := m.compatible .plainText
  encode v _ := .ok (Utf8.encode v.render)
  decode _ e := .error (.unsupported "text" e.name)

/-- A handler that names no codec. -/
def noteHandler : Handler Unit where
  controller := "Notes"
  name := "get"
  params := []
  returns := "Note"
  codec := none
  call _ _ := pure (.entity (.ofName "Note") .null)

/-- A request for JSON, or else for text. -/
def asksForJson : Request :=
  ⟨.get, "/", none, 1, ⟨[("Accept", "application/json, text/plain;q=0.5")]⟩, []⟩

theorem accepted_asksForJson :
    asksForJson.accepted = [.json, ⟨"text", "plain", [("q", "0.5")]⟩] := by
  have helements : asksForJson.fields.elements "accept" =
      ["application/json", "text/plain;q=0.5"] := by
    decide +kernel
  have hentries : (["application/json", "text/plain;q=0.5"].filterMap MediaType.ofText?).filter
      Accept.isWanted = [.json, ⟨"text", "plain", [("q", "0.5")]⟩] := by
    decide +kernel
  rw [Request.accepted, Accept.ofFields, helements]
  show Accept.ofEntries _ = _
  rw [Accept.ofEntries, hentries]
  exact List.mergeSort_of_pairwise (by decide +kernel)

/-- The same, but with a format in the query. -/
def asksForFormat (format : String) : Request :=
  { asksForJson with query := some ("format=" ++ format) }

/-- JSON is sent where it is wanted most, although the codec for text comes first; text is sent where
the query asks for it, and nothing where it asks for a format that nobody knows. -/
theorem wanted_json_is_sent :
    let codecs := (ofList [.codec plainCodec, .defaults] : Wiring Unit).codecs
    writeNegotiated codecs (.entity (.ofName "Note") .null) asksForJson =
      .ok (.body .json (Utf8.encode "null")) ∧
    writeNegotiated codecs (.entity (.ofName "Note") .null) (asksForFormat "Text") =
      .ok (.body .plainText (Utf8.encode "null")) ∧
    writeNegotiated codecs (.entity (.ofName "Note") .null) (asksForFormat "yaml") =
      .error (.unsupported "unknown format 'yaml'") := by
  intro codecs
  have hothers : ∀ f, Registration.replyFactory f ∈ [.codec plainCodec, .defaults] →
      f.supports noteHandler = true → f = negotiatingFactory := by
    intro f hf
    simp at hf
  obtain ⟨-, hparam, hserves⟩ := serves_choice (l := [.codec plainCodec, .defaults])
    (h := noteHandler) (.inl (by simp)) hothers rfl ()
  have hparam : codecs.formatParam = some "format" := hparam
  refine ⟨?_, ?_, ?_⟩
  · obtain ⟨-, haccept, hpayload, -⟩ := hserves (.ofName "Note") .null asksForJson
    have hfirst : IsFirst Codec.order [plainCodec, .json]
        (fun k => k.writes .json (.ofName "Note")) .json := by
      apply isFirst_of_find?
      rw [byOrder_of_pairwise (by decide)]
      rfl
    have hchosen := (haccept (fun _ _ => rfl) (.ok .json)).mpr (by
      rw [accepted_asksForJson]
      exact .accepted [] (by simp) hfirst)
    exact (hpayload _).mpr ⟨.json, _, hchosen, rfl, rfl⟩
  · obtain ⟨hformat, -, hpayload, -⟩ := hserves (.ofName "Note") .null (asksForFormat "Text")
    have hfirst : IsFirst Codec.order [plainCodec, .json]
        (fun k => k.writes .plainText (.ofName "Note")) plainCodec := by
      apply isFirst_of_find?
      rw [byOrder_of_pairwise (by decide)]
      rfl
    obtain ⟨hchoice, -⟩ := hformat "format" "Text" hparam (by decide +kernel)
    have hchosen := (hchoice (.ok plainCodec)).mpr (.format (by decide +kernel) hfirst)
    exact (hpayload _).mpr ⟨plainCodec, _, hchosen, rfl, rfl⟩
  · obtain ⟨hformat, -, -, hfails, -⟩ := hserves (.ofName "Note") .null (asksForFormat "yaml")
    obtain ⟨hchoice, -⟩ := hformat "format" "yaml" hparam (by decide +kernel)
    exact hfails _ ((hchoice _).mpr (.unknown (by decide +kernel)))

end Wiring

end HttpDispatch
