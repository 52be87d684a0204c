import HttpDispatch.Proofs.Connection.Framing
import HttpDispatch.Proofs.Connection.Turn
import HttpDispatch.Proofs.Pipeline.Committing

/-!
# How a stream is cut

The bytes of a peer come in chunks, and where one chunk ends and the next begins is up to the
network. A connection that goes on as far as possible does the same as if it had all bytes at once,
as long as the verdict on a beginning can be trusted wherever a request starts (`Frame.Starts`,
`Frame.Steady`).

* `Connection.whole`, `Connection.advance_whole`: a connection and the one that has all bytes;
* `Pool.Finishes`, `Connection.isOver_advance`: with handlers that finish, it comes to its end;
* `Connection.advance_of_starts`: what a connection does before it gets to a request;
* `Connection.cuts_agree_iff`: all cuts of a stream come to the same unless a head beyond the limit
  declares a size that cannot be counted.
-/

namespace HttpDispatch

variable {σ : Type}

namespace Frame

/-- The places of a stream where a connection begins to read a request: the beginning, and behind
each request after which the connection is kept. -/
inductive Starts (limit : Nat) : Bytes → Bytes → Prop where
  | here (t : Bytes) : Starts limit t t
  | next {s t : Bytes} {r : Request} {size : Nat} (read : Frame.read limit s = .request r size)
    (kept : r.isKeepAlive) (rest : Starts limit (s.drop size) t) : Starts limit s t

end Frame

namespace Connection

/-- The connection as if it had read all bytes that have come. -/
def whole (c : Connection) : Connection :=
  { c with buffer := c.buffer ++ c.unread.flatten, unread := [] }

/-- The connection may still come to read. -/
def IsLive (c : Connection) : Prop := c.activity = .reading ∨ ∃ id, c.activity = .serving id true

/-- Two connections have come to the same: they have written the same and are doing the same, and
the same was done for them. -/
structure Agree (a b : Connection × Pool σ) : Prop where
  sent : a.1.sent = b.1.sent
  activity : a.1.activity = b.1.activity
  pool : a.2 = b.2

@[simp] theorem Agree.refl (a : Connection × Pool σ) : Agree a a := ⟨rfl, rfl, rfl⟩

variable {limit : Nat} {c : Connection} {p : Pool σ}

theorem whole_of_unread (h : c.unread = []) : c.whole = c := by
  rw [whole, h, List.flatten_nil, List.append_nil, ← h]

theorem take_whole {chunk : Bytes} {rest : List Bytes} (h : c.unread = chunk :: rest) :
    (c.take chunk rest).whole = c.whole := by
  rw [whole, whole, h, List.flatten_cons, ← List.append_assoc]
  rfl

theorem await_whole {id size : Nat} {keepAlive : Bool} (h : size ≤ c.buffer.length) :
    (c.await id size keepAlive).whole = c.whole.await id size keepAlive := by
  unfold whole await
  rw [List.drop_append_of_le_length h]

theorem kept_of_live_await {id size : Nat} {keepAlive : Bool}
    (h : (c.await id size keepAlive).IsLive) : keepAlive := by
  rcases h with h | ⟨_, h⟩
  · cases h
  · cases h
    rfl

theorem kept_of_live_respond {x : Response} {keepAlive : Bool}
    (h : (c.respond x keepAlive).IsLive) : keepAlive := by
  cases keepAlive with
  | true => rfl
  | false =>
    rcases h with h | ⟨_, h⟩
    · cases h
    · cases h

theorem Rests.whole (h : Rests limit c p) : Rests limit c.whole p := by
  intro events c' p' step
  by_cases hu : c.unread = []
  · rw [whole_of_unread hu] at step
    exact h _ _ _ step
  · have hreading : c.activity ≠ .reading := by
      intro hreading
      obtain ⟨chunk, rest, hu⟩ := List.exists_cons_of_ne_nil hu
      cases hf : Frame.read limit c.buffer with
      | cut => exact h _ _ _ (.take hreading hf hu)
      | refused why => exact h _ _ _ (.refuse hreading hf)
      | uncountable => exact h _ _ _ (.abort hreading hf)
      | request r size => exact h _ _ _ (.request hreading hf)
    cases step with
    | answer serving answered => exact h _ _ _ (.answer serving answered)
    | _ reading => exact hreading reading

/-- **The chunks do not matter** where the verdict on a beginning can be trusted: a connection comes
to the same as with all bytes at once. -/
theorem advance_whole (hs : c.IsLive →
      ∀ t, Frame.Starts limit (c.buffer ++ c.unread.flatten) t → Frame.Steady limit t) :
    Agree (c.advance limit p) (c.whole.advance limit p) := by
  induction c, p using turn_induction limit with
  | rests c p hr =>
    rw [advance_of_rests hr, advance_of_rests hr.whole]
    exact ⟨rfl, rfl, rfl⟩
  | turn c p events c' p' step ih =>
    rw [advance_of_turn step]
    -- with all bytes there is the same turn, except that chunks need not be read
    have hread : c.activity = .reading → Frame.read limit c.buffer = .cut ∨
        Frame.read limit c.buffer = Frame.read limit c.whole.buffer := fun reading =>
      Frame.read_prefix (hs (.inl reading) _ (.here _))
    cases step with
    | answer serving answered =>
      have hwhole : Turn limit c.whole p _ _ _ := .answer serving answered
      rw [advance_of_turn hwhole]
      refine ih fun hlive => hs (.inr ?_)
      have hkept := kept_of_live_respond hlive
      rw [Bool.and_eq_true] at hkept
      rw [serving, hkept.1]
      exact ⟨_, rfl⟩
    | request reading read =>
      rw [read] at hread
      obtain hcut | heq := hread reading
      · cases hcut
      · have hwhole : Turn limit c.whole p _ _ _ := .request reading heq.symm
        rw [advance_of_turn hwhole, ← await_whole (Frame.size_le_of_read read)]
        refine ih fun hlive t ht => hs (.inl reading) t (.next heq.symm ?_ ?_)
        · exact kept_of_live_await hlive
        · rwa [List.drop_append_of_le_length (Frame.size_le_of_read read)]
    | refuse reading read =>
      rw [read] at hread
      obtain hcut | heq := hread reading
      · cases hcut
      · have hwhole : Turn limit c.whole p _ _ _ := .refuse reading heq.symm
        rw [advance_of_turn hwhole, advance_of_over rfl, advance_of_over rfl]
        exact ⟨rfl, rfl, rfl⟩
    | abort reading read =>
      rw [read] at hread
      obtain hcut | heq := hread reading
      · cases hcut
      · have hwhole : Turn limit c.whole p _ _ _ := .abort reading heq.symm
        rw [advance_of_turn hwhole, advance_of_over rfl, advance_of_over rfl]
        exact ⟨rfl, rfl, rfl⟩
    | take reading read unread =>
      rw [← take_whole unread]
      refine ih fun _ t ht => hs (.inl reading) t ?_
      rwa [unread, List.flatten_cons, ← List.append_assoc]
    | leave reading read unread ended =>
      have hwhole := whole_of_unread unread
      rw [hwhole, advance_of_turn (.leave reading read unread ended)]
      exact .refl _

end Connection

/-! ### Handlers that finish -/

namespace Pool

/-- The pool after it has taken in requests, one after the other. -/
def submitAll (p : Pool σ) (rs : List Request) : Pool σ := rs.foldl (fun p r => (p.submit r).2) p

/-- Every request is answered when it has been taken in, whatever was taken in before. -/
def Finishes (p : Pool σ) : Prop :=
  ∀ rs r, ∃ x, ((p.submitAll rs).submit r).2.answer? (p.submitAll rs).service.next = some x

variable {p : Pool σ}

theorem Finishes.submit (h : p.Finishes) (r : Request) : (p.submit r).2.Finishes :=
  fun rs => h (r :: rs)

theorem Finishes.answer (h : p.Finishes) (r : Request) :
    ∃ x, (p.submit r).2.answer? p.service.next = some x :=
  h [] r

@[simp] theorem dispatcher_submit (p : Pool σ) (r : Request) :
    (p.submit r).2.service.dispatcher = p.service.dispatcher := by
  rcases p.submit_cases r with h | h | h
  · rw [h]
    exact Service.dispatcher_on ..
  · rw [h]
    exact Service.dispatcher_on ..
  · rw [h]
    exact (Service.dispatcher_on ..).trans
      ((Service.dispatcher_on ..).trans (Service.dispatcher_on ..))

@[simp] theorem dispatcher_submitAll : ∀ (rs : List Request) (p : Pool σ),
    (p.submitAll rs).service.dispatcher = p.service.dispatcher
  | [], _ => rfl
  | r :: rs, p => (dispatcher_submitAll rs (p.submit r).2).trans (p.dispatcher_submit r)

theorem answer?_of_isDone {id : Nat} {e : Exchange σ}
    (he : p.service.exchanges[id]? = some e) (hd : e.isDone) : p.answer? id = some e.response := by
  rw [answer?, he, Option.filter_some, if_pos hd]
  rfl

theorem answer_submit (h : ∀ route ∈ p.service.dispatcher.routes, route.action.isPrompt)
    (r : Request) : ∃ x, (p.submit r).2.answer? p.service.next = some x := by
  have hnew : (p.opened r).service.exchanges[p.service.next]? =
      some { id := p.service.next, request := r } := by
    show (p.service.submit r).exchanges[p.service.next]? = _
    rw [Service.exchanges_submit, if_pos rfl]
  suffices hdone : ∃ e, (p.submit r).2.service.exchanges[p.service.next]? = some e ∧ e.isDone by
    obtain ⟨e, he, hd⟩ := hdone
    exact ⟨_, answer?_of_isDone he hd⟩
  rcases p.submit_cases r with hs | hs | hs
  · rw [hs]
    exact ⟨_, Service.exchanges_on_self _ hnew, Exchange.isDone_abandon _⟩
  · rw [hs]
    exact ⟨_, Service.exchanges_on_self _ hnew, Exchange.isDone_finish ..⟩
  · rw [hs]
    have hstart := Service.exchanges_on_self
      (fun e hub => e.start (p.opened r).service.dispatcher hub) hnew
    have hsettle := Service.exchanges_on_self Exchange.settle hstart
    have hbury := Service.exchanges_on_self
      (fun e hub => (if e.runs.any Run.isCrashed then e.bury else e, hub)) hsettle
    refine ⟨_, hbury, ?_⟩
    dsimp only
    split
    · exact Exchange.isDone_finish ..
    · next hc =>
      rcases Exchange.start_of_prompt h _ (p.opened r).service.hub with hd | hcrash
      · exact (Exchange.later_settle _ _).isDone hd
      · exact absurd (Exchange.settle_crashed hcrash _) hc

/-- **Handlers finish if no action waits.** -/
theorem finishes_of_prompt (h : ∀ route ∈ p.service.dispatcher.routes, route.action.isPrompt) :
    p.Finishes := by
  intro rs r
  refine answer_submit ?_ r
  rwa [dispatcher_submitAll]

@[simp] theorem submit_isClosing (p : Pool σ) (r : Request) :
    (p.submit r).2.isClosing = p.isClosing :=
  (p.later_submit r).isClosing

end Pool

namespace Connection

variable {limit : Nat} {c : Connection} {p : Pool σ}

/-- **A connection comes to its end** once its peer has, if handlers finish. -/
theorem isOver_advance (hended : c.ended) (hfinish : p.Finishes)
    (hserving : ∀ id keepAlive, c.activity = .serving id keepAlive → ∃ x, p.answer? id = some x) :
    (c.advance limit p).1.isOver := by
  induction c, p using turn_induction limit with
  | rests c p hr =>
    rw [advance_of_rests hr]
    cases hc : c.activity with
    | closed => rw [isOver, hc]; rfl
    | aborted => rw [isOver, hc]; rfl
    | serving id keepAlive =>
      obtain ⟨x, hx⟩ := hserving id keepAlive hc
      exact absurd (.answer hc hx) (hr _ _ _)
    | reading =>
      cases hf : Frame.read limit c.buffer with
      | refused why => exact absurd (.refuse hc hf) (hr _ _ _)
      | uncountable => exact absurd (.abort hc hf) (hr _ _ _)
      | request r size => exact absurd (.request hc hf) (hr _ _ _)
      | cut =>
        cases hu : c.unread with
        | cons chunk rest => exact absurd (.take hc hf hu) (hr _ _ _)
        | nil => exact absurd (.leave hc hf hu hended) (hr _ _ _)
  | turn c p events c' p' step ih =>
    rw [advance_of_turn step]
    cases step with
    | answer serving answered =>
      refine ih hended hfinish fun id keepAlive h => ?_
      unfold respond at h
      dsimp only at h
      split at h <;> cases h
    | request reading read =>
      refine ih hended (hfinish.submit _) fun id keepAlive h => ?_
      cases h
      exact hfinish.answer _
    | refuse reading read => exact ih hended hfinish fun id keepAlive h => by cases h
    | abort reading read => exact ih hended hfinish fun id keepAlive h => by cases h
    | take reading read unread =>
      refine ih hended hfinish fun id keepAlive h => ?_
      have hc : c.activity = .serving id keepAlive := h
      rw [reading] at hc
      cases hc
    | leave reading read unread ended =>
      exact ih hended hfinish fun id keepAlive h => by cases h

/-- **What a connection does before it gets to a start**: it has requests served until the bytes in
front of the start are used up, and what it has written then does not depend on what follows. -/
theorem advance_of_starts {s t : Bytes} (h : Frame.Starts limit s t) :
    ∃ before, s = before ++ t ∧ ∀ p : Pool σ, p.isClosing = false → p.Finishes →
      ∃ (q : Pool σ) (written : List Response), ∀ (c : Connection) (more : Bytes),
        c.activity = .reading → c.buffer = before ++ more →
        c.advance limit p =
          { c with buffer := more, sent := c.sent ++ written }.advance limit q := by
  induction h with
  | here t =>
    refine ⟨[], rfl, fun p _ _ => ⟨p, [], fun c more _ hbuffer => ?_⟩⟩
    rw [List.append_nil, ← show c.buffer = more from hbuffer]
  | @next s t r size read kept rest ih =>
    obtain ⟨before, hs, ih⟩ := ih
    refine ⟨s.take size ++ before, ?_, fun p hopen hfinish => ?_⟩
    · rw [List.append_assoc, ← hs, List.take_append_drop]
    · obtain ⟨x, hx⟩ := hfinish.answer r
      obtain ⟨q, written, ih⟩ := ih (p.submit r).2 ((p.submit_isClosing r).trans hopen)
        (hfinish.submit r)
      refine ⟨q, x.setKeepAlive true :: written, fun c more reading hbuffer => ?_⟩
      have hlen : (s.take size).length = size := by
        rw [List.length_take, Nat.min_eq_left (Frame.size_le_of_read read)]
      have hread : Frame.read limit c.buffer = .request r size := by
        rw [hbuffer, List.append_assoc]
        exact Frame.read_exact read _
      have hrest : c.buffer.drop size = before ++ more := by
        rw [hbuffer, List.append_assoc, List.drop_left' hlen]
      rw [advance_of_turn (.request reading hread), advance_of_turn (.answer rfl hx), kept,
        Pool.submit_isClosing, hopen, ih _ more rfl hrest]
      obtain ⟨unread, ended, buffer, activity, sent⟩ := c
      cases reading
      show advance limit ⟨unread, ended, more, .reading, sent ++ [x.setKeepAlive true] ++ written⟩ q =
        _
      rw [List.append_assoc]
      rfl

/-! ### All cuts of a stream -/

/-- A way of cutting a stream into chunks, none of which is empty. -/
def IsCut (stream : Bytes) (chunks : List Bytes) : Prop := chunks.flatten = stream ∧ [] ∉ chunks

instance (stream : Bytes) (chunks : List Bytes) : Decidable (IsCut stream chunks) :=
  inferInstanceAs (Decidable (_ ∧ _))

/-- A head that is longer than the limit, by more than one byte, and declares a body so large that
the sizes of both cannot be added. -/
def Overflows (limit : Nat) (t : Bytes) : Prop :=
  ∃ r h, Request.read t = .ok (r, h) ∧ limit + 1 < h.size ∧ Whole.maxSize < Frame.declaredSize r h

theorem read_take_of_long {t : Bytes} {r : Request} {h : Head} (hread : Request.read t = .ok (r, h))
    (hsize : limit + 1 < h.size) : Frame.read limit (t.take (limit + 1)) = .refused .tooLarge := by
  have hle : h.size ≤ t.length := (Head.read_exact (Request.read_ok_iff.mp hread).1).1
  have hlen : (t.take (limit + 1)).length = limit + 1 := by rw [List.length_take]; omega
  cases hb : Request.read (t.take (limit + 1)) with
  | error fault =>
    cases fault with
    | incomplete => rw [Frame.read_of_incomplete hb, if_pos (by rw [hlen]; omega)]
    | malformed f =>
      have := Request.read_malformed hb (t.drop (limit + 1))
      rw [List.take_append_drop, hread] at this
      cases this
  | ok x =>
    obtain ⟨hx, body, ht⟩ := Request.read_append (u := t.drop (limit + 1)) hb
    rw [List.take_append_drop, hread] at ht
    cases ht
    omega

theorem advance_ofChunks (chunk : Bytes) (chunks : List Bytes) :
    (ofChunks (chunk :: chunks)).advance limit p =
      { ofChunks chunks with buffer := chunk }.advance limit p :=
  advance_of_turn (.take rfl rfl rfl)

/-- A start at which a head overflows is a place where cuts matter: with all bytes at once the
connection breaks off, and with the head in two pieces it answers. -/
theorem cuts_differ {stream t : Bytes} (hopen : p.isClosing = false) (hfinish : p.Finishes)
    (hstart : Frame.Starts limit stream t) (hover : Overflows limit t) :
    ∃ chunks₁ chunks₂, IsCut stream chunks₁ ∧ IsCut stream chunks₂ ∧
      ((ofChunks chunks₁).advance limit p).1.output ≠
        ((ofChunks chunks₂).advance limit p).1.output := by
  obtain ⟨before, hstream, hadvance⟩ := advance_of_starts hstart
  obtain ⟨q, written, hadvance⟩ := hadvance p hopen hfinish
  obtain ⟨r, h, hread, hsize, hmax⟩ := hover
  have hle : h.size ≤ t.length := (Head.read_exact (Request.read_ok_iff.mp hread).1).1
  have hwhole : ((ofChunks [stream]).advance limit p).1.sent = written := by
    have hframe : Frame.read limit t = .uncountable := by rw [Frame.read_of_ok hread, if_pos hmax]
    rw [advance_ofChunks, hadvance _ t rfl hstream, advance_of_turn (.abort rfl hframe),
      advance_of_over rfl]
    rfl
  have hpieces : ((ofChunks [before ++ t.take (limit + 1), t.drop (limit + 1)]).advance
      limit p).1.sent = written ++ [Refusal.tooLarge.response] := by
    rw [advance_ofChunks, hadvance _ _ rfl rfl,
      advance_of_turn (.refuse rfl (read_take_of_long hread hsize)), advance_of_over rfl]
    rfl
  refine ⟨[stream], [before ++ t.take (limit + 1), t.drop (limit + 1)], ⟨List.append_nil _, ?_⟩,
    ⟨?_, ?_⟩, fun heq => ?_⟩
  · intro hmem
    have hempty := (List.mem_singleton.mp hmem).symm
    rw [hstream, List.append_eq_nil_iff] at hempty
    rw [hempty.2, List.length_nil] at hle
    omega
  · rw [hstream, List.flatten_cons, List.flatten_cons, List.flatten_nil, List.append_nil,
      List.append_assoc, List.take_append_drop]
  · intro hmem
    rcases List.mem_cons.mp hmem with hempty | hmem
    · have hlen := congrArg List.length hempty
      rw [List.length_append, List.length_take, List.length_nil] at hlen
      omega
    · have hlen := congrArg List.length (List.mem_singleton.mp hmem)
      rw [List.length_drop, List.length_nil] at hlen
      omega
  · rw [output, output, hwhole, hpieces, List.flatMap_append, List.self_eq_append_right] at heq
    exact absurd heq (by decide +kernel)

/-- **How a stream is cut matters only where sizes cannot be counted.** The bytes of a peer that has
nothing more to send are cut into chunks; the pool is open, and handlers finish. Let every head in
the stream that is malformed be so within the limit.

Then however the stream is cut, the connection comes to its end; and any two ways of cutting it have
the same requests dispatched and the same bytes written if and only if no request of the stream
starts with a head that is longer than the limit and declares a body so large that the sizes of both
cannot be added. -/
theorem cuts_agree_iff {stream : Bytes} (hopen : p.isClosing = false) (hfinish : p.Finishes)
    (hearly : ∀ t f, Frame.Starts limit stream t → Request.read t = .error (.malformed f) →
      ∃ f', Request.read (t.take limit) = .error (.malformed f')) :
    (∀ chunks, IsCut stream chunks → ((ofChunks chunks).advance limit p).1.isOver) ∧
    ((∀ chunks₁ chunks₂, IsCut stream chunks₁ → IsCut stream chunks₂ →
        ((ofChunks chunks₁).advance limit p).2 = ((ofChunks chunks₂).advance limit p).2 ∧
        ((ofChunks chunks₁).advance limit p).1.output =
          ((ofChunks chunks₂).advance limit p).1.output) ↔
      ∀ t, Frame.Starts limit stream t → ¬ Overflows limit t) := by
  refine ⟨fun chunks _ => ?_, fun hagree t hstart hover => ?_,
    fun hnone chunks₁ chunks₂ h₁ h₂ => ?_⟩
  · refine isOver_advance rfl hfinish fun id keepAlive h => ?_
    cases h
  · obtain ⟨chunks₁, chunks₂, h₁, h₂, hne⟩ := cuts_differ hopen hfinish hstart hover
    exact hne (hagree chunks₁ chunks₂ h₁ h₂).2
  · have hsteady : ∀ t, Frame.Starts limit stream t → Frame.Steady limit t := by
      intro t ht
      refine ⟨fun hf => hearly t _ ht hf, fun hr hsize => ?_⟩
      exact Nat.le_of_not_lt fun hmax => hnone t ht ⟨_, _, hr, hsize, hmax⟩
    have hwhole : ∀ chunks, IsCut stream chunks → Agree ((ofChunks chunks).advance limit p)
        ({ ofChunks [] with buffer := stream }.advance limit p) := by
      intro chunks hcut
      rw [← hcut.1]
      refine advance_whole fun _ t ht => hsteady t ?_
      rw [← hcut.1]
      exact ht
    have h₁ := hwhole chunks₁ h₁
    have h₂ := hwhole chunks₂ h₂
    exact ⟨h₁.pool.trans h₂.pool.symm, by rw [output, output, h₁.sent, h₂.sent]⟩

theorem finishes_idle : Pool.idle.Finishes := Pool.finishes_of_prompt fun _ h => by cases h

theorem starts_farewell {t : Bytes} (h : Frame.Starts 1024 farewell t) : t = farewell := by
  cases h with
  | here => rfl
  | next read kept =>
    rw [read_farewell] at read
    cases read
    exact absurd kept (by decide)

/-- A single request is served the same at once and in two pieces. -/
theorem farewell_cuts_agree :
    ((ofChunks [farewell]).advance 1024 .idle).2 =
        ((ofChunks [farewell.take 7, farewell.drop 7]).advance 1024 .idle).2 ∧
      ((ofChunks [farewell]).advance 1024 .idle).1.output =
        ((ofChunks [farewell.take 7, farewell.drop 7]).advance 1024 .idle).1.output := by
  obtain ⟨h, hread, -⟩ := Frame.read_eq_request read_farewell
  have hagree := cuts_agree_iff rfl finishes_idle fun t f ht hf => by
    rw [starts_farewell ht, hread] at hf
    cases hf
  refine hagree.2.mpr (fun t ht hover => ?_) _ _ (by decide +kernel) (by decide +kernel)
  obtain ⟨r', h', hread', hsize, -⟩ := hover
  rw [starts_farewell ht] at hread'
  have hle := (Head.read_exact (Request.read_ok_iff.mp hread').1).1
  have hlen : farewell.length = 18 := by decide
  omega

/-- A head that declares as large a body as can be counted. -/
def oversized : Bytes :=
  Utf8.encode "POST / HTTP/1.1\r\nContent-Length: 18446744073709551615\r\n\r\n"

theorem starts_oversized {t : Bytes} (h : Frame.Starts 16 oversized t) : t = oversized := by
  cases h with
  | here => rfl
  | next read =>
    have huncountable : Frame.read 16 oversized = .uncountable := by decide +kernel
    rw [huncountable] at read
    cases read

/-- **Cuts matter for a size that cannot be counted**: nothing is written if the head comes at once,
and the request is refused if it comes in pieces, although no head of the stream is malformed. -/
theorem oversized_depends_on_cut :
    (∀ t f, Frame.Starts 16 oversized t → Request.read t ≠ .error (.malformed f)) ∧
    IsCut oversized [oversized] ∧ IsCut oversized [oversized.take 17, oversized.drop 17] ∧
    ((ofChunks [oversized]).advance 16 .idle).1.sent = [] ∧
    ((ofChunks [oversized.take 17, oversized.drop 17]).advance 16 .idle).1.sent =
      [Refusal.tooLarge.response] := by
  refine ⟨fun t f ht hf => ?_, by decide +kernel, by decide +kernel, ?_, ?_⟩
  · rw [starts_oversized ht] at hf
    have hread : Frame.read 16 oversized = .refused (.malformed f) := Frame.read_of_malformed hf
    have huncountable : Frame.read 16 oversized = .uncountable := by decide +kernel
    rw [huncountable] at hread
    cases hread
  · rw [advance_ofChunks, advance_of_turn (.abort rfl (by decide +kernel)), advance_of_over rfl]
    rfl
  · have hrefused : Frame.read 16 (oversized.take 17) = .refused .tooLarge := by decide +kernel
    have step : Turn 16 { ofChunks [oversized.drop 17] with buffer := oversized.take 17 } .idle
      _ _ _ := .refuse rfl hrefused
    rw [advance_ofChunks, advance_of_turn step, advance_of_over rfl]
    rfl

end Connection

end HttpDispatch
