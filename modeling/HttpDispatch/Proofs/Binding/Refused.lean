import HttpDispatch.Proofs.Binding.Negotiated

/-!
# Refused media types

An entry of quality zero takes no part in negotiation: the choice is that of the entries beside it.
It does not narrow them either. A codec of the refused media type is still chosen where an entry
beside it covers more than one type, or the codec takes other media types than its own.

* `MediaType.SameEssence`: the same type and subtype, whatever the parameters;
* `Accept.ofEntries_refused`: an entry that is not wanted, among others;
* `Wiring.choice_beside_refused`: what is chosen and sent beside a refused entry.
-/

namespace HttpDispatch

variable {σ : Type}

/-- The media types agree in type and subtype. -/
def MediaType.SameEssence (m n : MediaType) : Prop := m.kind = n.kind ∧ m.subtype = n.subtype

instance (m n : MediaType) : Decidable (m.SameEssence n) :=
  inferInstanceAs (Decidable (_ ∧ _))

namespace Accept

variable {before after : List String} {text : String} {m : MediaType}

/-- **A refused entry is left out.** -/
theorem ofEntries_refused (hread : MediaType.ofText? text = some m)
    (hrefused : isWanted m = false) :
    ofEntries (before ++ text :: after) = ofEntries (before ++ after) := by
  have hwanted : ((before ++ text :: after).filterMap MediaType.ofText?).filter isWanted =
      ((before ++ after).filterMap MediaType.ofText?).filter isWanted := by
    simp [List.filterMap_append, hread, hrefused]
  rw [ofEntries, ofEntries, hwanted]

theorem exists_of_mem_ofEntries {entries : List String} {n : MediaType}
    (h : n ∈ ofEntries entries) : ∃ entry ∈ entries, MediaType.ofText? entry = some n := by
  rw [ofEntries, List.mem_mergeSort, List.mem_filter] at h
  exact List.mem_filterMap.mp h.1

theorem accepted_of_refused {r : Request}
    (helements : r.fields.elements "accept" = before ++ text :: after)
    (hread : MediaType.ofText? text = some m) (hrefused : isWanted m = false) :
    r.accepted = ofEntries (before ++ after) := by
  rw [← ofEntries_refused hread hrefused, ← helements, Request.accepted, ofFields]
  cases hentries : r.fields.elements "accept" with
  | nil => simp [hentries] at helements
  | cons entry entries => rfl

end Accept

theorem Choice.mem {registered : List Codec} {e : EntityType} {format : Option String}
    {accepted : List MediaType} {c : Codec} (h : Choice registered e format accepted (.ok c)) :
    c ∈ registered := by
  cases h with
  | format known first => exact first.mem
  | accepted _ nobody first => exact first.mem

theorem Choice.exists_accepted {registered : List Codec} {e : EntityType}
    {accepted : List MediaType} {c : Codec} (h : Choice registered e none accepted (.ok c)) :
    ∃ n ∈ accepted, c.writes n e = true := by
  cases h with
  | @accepted earlier later n _ nobody first => exact ⟨n, by simp, first.holds⟩

namespace Wiring

variable {l : List (Registration σ)} {r : Request} {before after : List String} {text : String}
variable {m : MediaType} {e : EntityType}

/-- **Beside a refused entry**, where the query asks for no format, the choice is that of the other
entries. What is sent was written for one of them, none of which names the refused type; so nothing
of that type is sent where no codec of that type writes any of them. -/
theorem choice_beside_refused
    (hformat : ∀ param, (ofList l).codecs.formatParam = some param → r.queryParam? param = none)
    (helements : r.fields.elements "accept" = before ++ text :: after)
    (hread : MediaType.ofText? text = some m) (hrefused : Accept.isWanted m = false)
    (hothers : ∀ other ∈ before ++ after, ∀ n, MediaType.ofText? other = some n →
      ¬ n.SameEssence m) :
    let codecs := (ofList l).codecs
    let remaining := Accept.ofEntries (before ++ after)
    (∀ x, negotiate codecs e r = x ↔
      Choice (l.flatMap Registration.codecs) e none remaining x) ∧
    (∀ v t data, writeNegotiated codecs (.entity e v) r = .ok (.body t data) →
      ∃ c n, negotiate codecs e r = .ok c ∧ c.mediaType = t ∧ n ∈ remaining ∧
        c.writes n e = true ∧ ¬ n.SameEssence m) ∧
    ((∀ c ∈ l.flatMap Registration.codecs, c.mediaType.SameEssence m →
        ∀ n ∈ remaining, c.writes n e = false) →
      ∀ v t data, writeNegotiated codecs (.entity e v) r = .ok (.body t data) →
        ¬ t.SameEssence m) := by
  intro codecs remaining
  have hlist : codecs.list = byOrder Codec.order (l.flatMap Registration.codecs) := codecs_ofList l
  have hchoice : ∀ x, negotiate codecs e r = x ↔
      Choice (l.flatMap Registration.codecs) e none remaining x := by
    intro x
    rw [negotiate_eq_iff hlist, Codecs.format?_eq_none.mpr hformat,
      Accept.accepted_of_refused helements hread hrefused]
  have hsent : ∀ v t data, writeNegotiated codecs (.entity e v) r = .ok (.body t data) →
      ∃ c n, negotiate codecs e r = .ok c ∧ c.mediaType = t ∧ n ∈ remaining ∧
        c.writes n e = true ∧ ¬ n.SameEssence m := by
    intro v t data h
    obtain ⟨c, bytes, hnegotiate, -, hbody⟩ := writeNegotiated_eq_ok.mp h
    obtain ⟨n, hn, hwrites⟩ := ((hchoice _).mp hnegotiate).exists_accepted
    obtain ⟨other, hother, hname⟩ := Accept.exists_of_mem_ofEntries hn
    cases hbody
    exact ⟨c, n, hnegotiate, rfl, hn, hwrites, hothers other hother n hname⟩
  refine ⟨hchoice, hsent, ?_⟩
  intro hnobody v t data h hsame
  obtain ⟨c, n, hnegotiate, rfl, hn, hwrites, -⟩ := hsent v t data h
  have hno := hnobody c ((hchoice _).mp hnegotiate).mem hsame n hn
  rw [hwrites] at hno
  cases hno

/-- A request that refuses JSON and accepts everything. -/
def refusesJson : Request :=
  ⟨.get, "/", none, 1, ⟨[("Accept", "application/json;q=0, */*")]⟩, []⟩

theorem elements_refusesJson :
    refusesJson.fields.elements "accept" = ["application/json;q=0", "*/*"] := by
  decide +kernel

/-- Text is sent where JSON is refused and the codec for text comes first. -/
theorem text_is_sent :
    writeNegotiated (ofList [.codec plainCodec, .defaults] : Wiring Unit).codecs
      (.entity (.ofName "Note") .null) refusesJson =
        .ok (.body .plainText (Utf8.encode "null")) := by
  have hothers : ∀ other ∈ [] ++ ["*/*"], ∀ n, MediaType.ofText? other = some n →
      ¬ n.SameEssence ⟨"application", "json", [("q", "0")]⟩ := by
    intro other hother n hn
    have hall : MediaType.ofText? "*/*" = some .all := by decide +kernel
    rw [List.nil_append, List.mem_singleton] at hother
    rw [hother, hall] at hn
    cases hn
    decide
  obtain ⟨hchoice, -, -⟩ := choice_beside_refused (l := [.codec plainCodec, .defaults])
    (r := refusesJson) (e := .ofName "Note") (fun _ _ => rfl) elements_refusesJson (by decide +kernel) (by decide +kernel) hothers
  have hfirst : IsFirst Codec.order [plainCodec, .json]
      (fun k => k.writes .all (.ofName "Note")) plainCodec := by
    apply isFirst_of_find?
    rw [byOrder_of_pairwise (by decide)]
    rfl
  have hchosen := (hchoice (.ok plainCodec)).mpr (by
    have hremaining : Accept.ofEntries ([] ++ ["*/*"]) = [.all] := by decide +kernel
    rw [hremaining]
    exact .accepted [] (by simp) hfirst)
  exact writeNegotiated_eq_ok.mpr ⟨plainCodec, _, hchosen, rfl, rfl⟩

/-- **JSON is sent although it is refused**, where everything else is accepted and no other codec is
registered. -/
theorem refused_json_is_sent :
    refusesJson.fields.elements "accept" = ["application/json;q=0", "*/*"] ∧
    (MediaType.ofText? "application/json;q=0").map MediaType.quality = some 0 ∧
    (∀ m, MediaType.ofText? "application/json;q=0" = some m → MediaType.json.SameEssence m) ∧
    (∀ n, MediaType.ofText? "*/*" = some n → ¬ n.SameEssence .json) ∧
    refusesJson.query = none ∧
    writeNegotiated (default (some "format") : Wiring Unit).codecs
      (.entity (.ofName "Note") .null) refusesJson = .ok (.body .json (Utf8.encode "null")) := by
  have hcodecs : (default (some "format") : Wiring Unit).codecs = ⟨[.json], some "format"⟩ := by
    rw [default, ofList_eq]
    simp [byOrder, Registration.codecs]
    rfl
  have hjson : MediaType.ofText? "application/json;q=0" =
      some ⟨"application", "json", [("q", "0")]⟩ := by
    decide +kernel
  have hall : MediaType.ofText? "*/*" = some .all := by decide +kernel
  have hformat : Codecs.format? ⟨[.json], some "format"⟩ refusesJson = none := by decide
  have haccepted : refusesJson.accepted = [.all] := by decide +kernel
  have hnegotiate : negotiate ⟨[.json], some "format"⟩ (.ofName "Note") refusesJson =
      .ok .json := by
    rw [negotiate, hformat, haccepted]
    rfl
  rw [hcodecs, hjson, hall]
  refine ⟨elements_refusesJson, by decide +kernel, ?_, ?_, rfl,
    writeNegotiated_eq_ok.mpr ⟨.json, _, hnegotiate, rfl, rfl⟩⟩
  · rintro m hm
    cases hm
    decide
  · rintro n hn
    cases hn
    decide

end Wiring

end HttpDispatch
