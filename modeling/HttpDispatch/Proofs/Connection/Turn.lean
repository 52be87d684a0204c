import HttpDispatch.Connection.Basic
import HttpDispatch.Proofs.Pipeline.Later

/-!
# Turns of a connection

`Connection.Turn` is one turn of a connection, with what can be seen of it from outside (`Event`);
`Connection.advance` takes turns as long as there are any. Between two turns of one connection,
handlers that wait may go on, and other connections may use the pool (`Pool.Stir`). A
`Connection.Course` is any order of turns and stirs, with the events in their order.

* `Pool.Later`, `Pool.later_submit`, `Pool.Stir.later`: whatever happens, exchanges become later
  ones, and an open pool stays open;
* `Pool.AnswersCrash`, `Pool.Buried`: how a handler that crashes is answered for;
* `Connection.advance_of_turn`, `Connection.advance_of_rests`: going on as far as possible is taking
  turns, and `Connection.turn_induction` is the induction that comes with it;
* `Connection.Course.advance`: it is a course, and ends where there is no turn.
-/

namespace HttpDispatch

variable {σ : Type}

/-- What can be seen of a connection and of the handlers that are at work for it. -/
inductive Event where
  /-- A request was taken in, and a run for it has begun. -/
  | dispatched (id : Nat) (r : Request)
  /-- A request was taken in, and there was no room for it. -/
  | turnedAway (id : Nat) (r : Request)
  /-- The response of an exchange was written. -/
  | answered (id : Nat) (response : Response)
  /-- Bytes were refused. -/
  | refused (why : Refusal)
  /-- A run has crashed; the response is as it was then. -/
  | crashed (id : Nat) (response : Response)
  deriving DecidableEq, Repr

/-- The connection itself has done it. -/
def Event.isOwn : Event → Bool
  | .crashed _ _ => false
  | _ => true

/-- The crash of an exchange, if one of its runs has crashed. -/
def Service.crashes (s : Service σ) (id : Nat) : List Event :=
  (((s.exchanges[id]?).filter fun e => e.runs.any Run.isCrashed).map fun e =>
    .crashed id e.response).toList

theorem Service.eq_of_mem_crashes {s : Service σ} {id : Nat} {event : Event}
    (h : event ∈ s.crashes id) :
    ∃ e, s.exchanges[id]? = some e ∧ e.runs.any Run.isCrashed ∧
      event = .crashed id e.response := by
  obtain ⟨e, he, rfl⟩ := Option.map_eq_some_iff.mp (Option.mem_toList.mp h)
  obtain ⟨he, hc⟩ := Option.filter_eq_some_iff.mp he
  exact ⟨e, he, hc, rfl⟩

@[simp] theorem Service.filter_crashes (s : Service σ) (id : Nat) :
    (s.crashes id).filter Event.isOwn = [] := by
  rw [List.filter_eq_nil_iff]
  intro event h
  obtain ⟨e, -, -, rfl⟩ := eq_of_mem_crashes h
  exact Bool.false_ne_true

namespace Pool

variable (p : Pool σ)

/-! ### Taking in a request -/

/-- The pool with one more exchange, that nothing has been done for. -/
def opened (r : Request) : Pool σ := { p with service := p.service.submit r }

/-- There is room for a request. -/
def hasRoom (r : Request) : Bool := !p.isClosing && (p.opened r).atWork.length < p.capacity

/-- What can be seen when a request is taken in. -/
def taking (r : Request) : List Event :=
  let id := p.service.next
  if p.hasRoom r then .dispatched id r :: ((p.opened r).service.start id).crashes id
  else [.turnedAway id r]

@[simp] theorem submit_fst (r : Request) : (p.submit r).1 = p.service.next := by
  unfold submit
  dsimp only
  split
  · rfl
  · split <;> rfl

theorem submit_of_room {r : Request} (h : p.hasRoom r) :
    p.submit r = (p.service.next, (p.opened r).start p.service.next) := by
  rw [hasRoom, Bool.and_eq_true, Bool.not_eq_true', decide_eq_true_eq] at h
  obtain ⟨hopen, hroom⟩ := h
  show (if p.isClosing then _ else if p.capacity ≤ (p.opened r).atWork.length then _ else
    (p.service.next, (p.opened r).start p.service.next)) = _
  rw [hopen, if_neg Bool.false_ne_true, if_neg (Nat.not_le.mpr hroom)]

/-! ### Stirs -/

/-- What happens to a pool between the turns of a connection, with what can be seen of it: others
take in requests, verdicts are signalled, handles are dropped, exchanges go on, and the application
acts on exchanges and on its own state. -/
inductive Stir : Pool σ → List Event → Pool σ → Prop where
  | submit (p : Pool σ) (r : Request) : Stir p [] (p.submit r).2
  | signal (p : Pool σ) (t : Ticket) (v : Verdict) : Stir p [] (p.signal t v).2
  | drop (p : Pool σ) (t : Ticket) : Stir p [] (p.drop t)
  | settle (p : Pool σ) (id : Nat) :
    Stir p ((p.service.settle id).crashes id) (p.settle id)
  | touch (p : Pool σ) (id : Nat) {α : Type} (a : Act σ α) :
    Stir p [] { p with service := p.service.touch id a }
  | withApp (p : Pool σ) (change : σ → σ) :
    Stir p [] { p with service := p.service.withApp change }

/-- **What a pool may become**: as open as it is, and with a later exchange for each. -/
structure Later (p p' : Pool σ) : Prop where
  isClosing : p'.isClosing = p.isClosing
  exchanges : ∀ {id : Nat} {e}, p.service.exchanges[id]? = some e →
    ∃ e', p'.service.exchanges[id]? = some e' ∧ Exchange.Later e e'

variable {p} {p' p'' : Pool σ}

@[simp] theorem Later.refl (p : Pool σ) : p.Later p := ⟨rfl, fun h => ⟨_, h, .refl _⟩⟩

theorem Later.trans (h : p.Later p') (k : p'.Later p'') : p.Later p'' where
  isClosing := k.isClosing.trans h.isClosing
  exchanges he := by
    obtain ⟨e', he', h1⟩ := h.exchanges he
    obtain ⟨e'', he'', h2⟩ := k.exchanges he'
    exact ⟨e'', he'', h1.trans h2⟩

theorem later_on (p : Pool σ) (id : Nat)
    (change : Exchange σ → Hub σ → Exchange σ × Hub σ)
    (h : ∀ e hub, Exchange.Later e (change e hub).1) :
    p.Later { p with service := p.service.on id change } where
  isClosing := rfl
  exchanges {j e} he := by
    rw [Service.exchanges_on]
    split
    · rw [he]
      exact ⟨_, rfl, h e p.service.hub⟩
    · exact ⟨e, he, .refl e⟩

theorem later_settle (p : Pool σ) (id : Nat) : p.Later (p.settle id) := by
  have h1 := later_on p id Exchange.settle fun e hub => e.later_settle hub
  refine h1.trans (later_on { p with service := p.service.settle id } id _ fun e hub => ?_)
  split
  · exact e.later_bury
  · exact .refl e

theorem exchanges_start (p : Pool σ) (id : Nat) {j : Nat} {e : Exchange σ}
    (he : p.service.exchanges[j]? = some e) :
    ∃ e', (p.start id).service.exchanges[j]? = some e' ∧
      if id = j then ∃ e₁ run, e.Later e₁ ∧ (e₁.addRun run).Later e' else e.Later e' := by
  have hbegin := Service.exchanges_on p.service id (fun e hub => e.start p.service.dispatcher hub) j
  rw [he, Option.map_some] at hbegin
  -- what follows the beginning is that the exchange goes on and is buried if need be
  let p₁ : Pool σ :=
    { p with service := p.service.on id fun e hub => e.start p.service.dispatcher hub }
  have hlater : p₁.Later (p₁.settle id) := p₁.later_settle id
  have hexchanges : (p.start id).service = (p₁.settle id).service := rfl
  rw [hexchanges]
  split
  · next hid =>
    rw [if_pos hid] at hbegin
    obtain ⟨e₁, run, hstart, h1⟩ := e.start_eq_addRun p.service.dispatcher p.service.hub
    obtain ⟨e', he', h2⟩ := hlater.exchanges hbegin
    rw [hstart] at h2
    exact ⟨e', he', e₁, run, h1, h2⟩
  · next hid =>
    rw [if_neg hid] at hbegin
    exact hlater.exchanges hbegin

theorem exchanges_opened {p : Pool σ} {r : Request} {j : Nat} {e : Exchange σ}
    (he : p.service.exchanges[j]? = some e) :
    p.service.next ≠ j ∧ (p.opened r).service.exchanges[j]? = some e := by
  have hlt : j < p.service.next := (List.getElem?_eq_some_iff.mp he).1
  refine ⟨by omega, ?_⟩
  show (p.service.submit r).exchanges[j]? = some e
  rw [Service.exchanges_submit, if_neg (by omega), he]

theorem later_opened (p : Pool σ) (r : Request) : p.Later (p.opened r) :=
  ⟨rfl, fun he => ⟨_, (exchanges_opened he).2, .refl _⟩⟩

/-- To take in a request is to open its exchange and to abandon, reject or begin it. -/
theorem submit_cases (p : Pool σ) (r : Request) :
    (p.submit r).2 = { p.opened r with service := (p.opened r).service.abandon p.service.next } ∨
      (p.submit r).2 = { p.opened r with
        service := (p.opened r).service.reject p.service.next "too many concurrent requests" } ∨
      (p.submit r).2 = (p.opened r).start p.service.next := by
  unfold submit
  dsimp only
  split
  · exact .inl rfl
  · split
    · exact .inr (.inl rfl)
    · exact .inr (.inr rfl)

theorem later_submit (p : Pool σ) (r : Request) : p.Later (p.submit r).2 := by
  rcases submit_cases p r with h | h | h
  · rw [h]
    exact (later_opened p r).trans (later_on _ _ _ fun e _ => e.later_abandon)
  · rw [h]
    have hreject := later_on (p.opened r) p.service.next
      (fun e hub => (e.reject "too many concurrent requests", hub)) fun e _ => e.later_terminate _
    exact (later_opened p r).trans ⟨rfl, hreject.exchanges⟩
  · rw [h]
    refine ⟨rfl, fun he => ?_⟩
    obtain ⟨hne, ho⟩ := exchanges_opened (r := r) he
    obtain ⟨e', he', hlater⟩ := exchanges_start (p.opened r) p.service.next ho
    rw [if_neg hne] at hlater
    exact ⟨e', he', hlater⟩

/-- **A request that there is room for is served once**: its exchange has one run. -/
theorem exchanges_submit_of_room {p : Pool σ} {r : Request} (h : p.hasRoom r) :
    ∃ e, (p.submit r).2.service.exchanges[p.service.next]? = some e ∧ e.request = r ∧
      e.runs.length = 1 := by
  have hnew : (p.opened r).service.exchanges[p.service.next]? =
      some { id := p.service.next, request := r } := by
    show (p.service.submit r).exchanges[p.service.next]? = _
    rw [Service.exchanges_submit, if_pos rfl]
  obtain ⟨e', he', hlater⟩ := exchanges_start (p.opened r) p.service.next hnew
  rw [if_pos rfl] at hlater
  obtain ⟨e₁, run, h1, h2⟩ := hlater
  rw [submit_of_room p h]
  refine ⟨e', he', h2.request.trans h1.request, h2.runs.trans ?_⟩
  show (e₁.runs ++ [run]).length = 1
  rw [List.length_append, h1.runs]
  rfl

theorem Stir.later {p p' : Pool σ} {events : List Event} (h : Stir p events p') : p.Later p' := by
  cases h with
  | submit r => exact later_submit p r
  | signal t v =>
    show p.Later { p with service := (p.service.signal t v).2 }
    unfold Service.signal
    split
    · exact .refl p
    · next s _ =>
      exact later_on p t.exchange
        (fun e hub => (e.withSignal t.run fun _ => (s.complete v).2, hub))
        fun e _ => e.later_withSignal t.run fun _ => (s.complete v).2
  | drop t => exact later_on p _ _ fun e _ => e.later_withSignal ..
  | settle id => exact later_settle p id
  | touch id a => exact later_on p _ _ fun e hub => e.later_touch a hub
  | withApp change => exact ⟨rfl, fun he => ⟨_, he, .refl _⟩⟩

/-- What others do to the pool is nothing that the connection does. -/
theorem Stir.filter_events {p p' : Pool σ} {events : List Event} (h : Stir p events p') :
    events.filter Event.isOwn = [] := by
  cases h with
  | settle id => exact Service.filter_crashes _ _
  | _ => rfl

theorem Stir.not_answered {p p' : Pool σ} {events : List Event} (h : Stir p events p') (id : Nat)
    (y : Response) : .answered id y ∉ events := by
  intro hy
  have hown : .answered id y ∈ events.filter Event.isOwn := List.mem_filter.mpr ⟨hy, rfl⟩
  rw [h.filter_events] at hown
  cases hown

/-! ### Crashes -/

/-- The answer to a request whose handler has crashed, where the response was as given then: that
response if it was committed, and otherwise a status 500 in plain words. -/
structure AnswersCrash (x y : Response) : Prop where
  committed : y.committed
  kept : x.committed → y.content = x.content
  sent : x.committed = false → y.content =
    (.internalServerError, x.fields, Utf8.encode "request processing failed")

theorem AnswersCrash.fixed {x y z : Response} (h : AnswersCrash x y) (k : y.Evolves z) :
    AnswersCrash x z := by
  have hfixed := k.fixed h.committed
  exact ⟨hfixed.after, fun hx => hfixed.content.trans (h.kept hx),
    fun hx => hfixed.content.trans (h.sent hx)⟩

theorem answersCrash_bury (e : Exchange σ) :
    e.bury.isDone ∧ AnswersCrash e.response e.bury.response := by
  refine ⟨Exchange.isDone_finish .., ?_⟩
  show AnswersCrash e.response
    (e.response.send Exchange.crash.answer none (Utf8.encode Exchange.crash.message)).2
  unfold Response.send
  cases hc : e.response.committed with
  | true => exact ⟨hc, fun _ => rfl, fun h => Bool.noConfusion (hc.symm.trans h)⟩
  | false => exact ⟨rfl, fun h => Bool.noConfusion (hc.symm.trans h), fun _ => rfl⟩

/-- **A crash is answered** at the moment it is seen: the exchange comes to its end then. -/
structure Buried (p : Pool σ) (id : Nat) (x : Response) : Prop where
  exchange : ∃ e, p.service.exchanges[id]? = some e ∧ e.isDone ∧ AnswersCrash x e.response

theorem Later.buried {p p' : Pool σ} {id : Nat} {x : Response} (h : p.Later p')
    (hb : p.Buried id x) : p'.Buried id x := by
  obtain ⟨e, he, hd, ha⟩ := hb.exchange
  obtain ⟨e', he', hl⟩ := h.exchanges he
  exact ⟨e', he', hl.isDone hd, ha.fixed hl.response⟩

theorem Buried.answer {p : Pool σ} {id : Nat} {x : Response} (h : p.Buried id x) :
    ∃ y, p.answer? id = some y ∧ AnswersCrash x y := by
  obtain ⟨e, he, hd, ha⟩ := h.exchange
  refine ⟨e.response, ?_, ha⟩
  rw [answer?, he, Option.filter_some, if_pos hd]
  rfl

theorem buried_bury (p : Pool σ) {id j : Nat} {x : Response}
    (h : .crashed j x ∈ p.service.crashes id) :
    Buried { p with service := p.service.bury id } j x := by
  obtain ⟨e, he, hc, hx⟩ := Service.eq_of_mem_crashes h
  obtain ⟨rfl, rfl⟩ := Event.crashed.inj hx
  obtain ⟨hd, ha⟩ := answersCrash_bury e
  refine ⟨e.bury, ?_, hd, ha⟩
  show (p.service.bury j).exchanges[j]? = some e.bury
  rw [Service.bury, Service.exchanges_on, if_pos rfl, he, Option.map_some, if_pos hc]

theorem Stir.buried {p p' : Pool σ} {events : List Event} {id : Nat} {x : Response}
    (h : Stir p events p') (hx : .crashed id x ∈ events) : p'.Buried id x := by
  cases h with
  | settle id => exact buried_bury { p with service := p.service.settle id } hx
  | submit r => cases hx
  | signal t v => cases hx
  | drop t => cases hx
  | touch id a => cases hx
  | withApp change => cases hx

theorem buried_of_taking {p : Pool σ} {r : Request} {id : Nat} {x : Response}
    (hx : .crashed id x ∈ p.taking r) : (p.submit r).2.Buried id x := by
  unfold taking at hx
  split at hx
  · next h =>
    rw [submit_of_room p h]
    cases hx with
    | tail _ hx =>
      exact ⟨(buried_bury
        { p.opened r with service := (p.opened r).service.start p.service.next } hx).exchange⟩
  · cases hx with
    | tail _ hx => cases hx

theorem not_answered_taking (p : Pool σ) (r : Request) (id : Nat) (y : Response) :
    .answered id y ∉ p.taking r := by
  intro hy
  have hown : .answered id y ∈ (p.taking r).filter Event.isOwn :=
    List.mem_filter.mpr ⟨hy, rfl⟩
  unfold taking at hown
  split at hown
  · rw [List.filter_cons_of_pos rfl, Service.filter_crashes] at hown
    cases hown with
    | tail _ hown => cases hown
  · cases hown with
    | tail _ hown => cases hown

/-- A pool with nothing to dispatch to, and room for one request at a time. -/
def idle : Pool Unit := ⟨.of (.of ⟨[], [], [], [], ⟨[], none⟩⟩ [] [] false) (), 1, [], false⟩

end Pool

namespace Connection

/-! ### Turns -/

/-- One turn of a connection, with what can be seen of it. -/
inductive Turn (limit : Nat) (c : Connection) (p : Pool σ) :
    List Event → Connection → Pool σ → Prop where
  /-- It writes the answer that it has waited for. -/
  | answer {id keepAlive response} (serving : c.activity = .serving id keepAlive)
    (answered : p.answer? id = some response) :
    Turn limit c p [.answered id response] (c.respond response (keepAlive && !p.isClosing)) p
  /-- It hands over the request at the front of the buffer. -/
  | request {r size} (reading : c.activity = .reading)
    (read : Frame.read limit c.buffer = .request r size) :
    Turn limit c p (p.taking r) (c.await p.service.next size r.isKeepAlive) (p.submit r).2
  /-- It refuses what is at the front of the buffer. -/
  | refuse {why} (reading : c.activity = .reading)
    (read : Frame.read limit c.buffer = .refused why) :
    Turn limit c p [.refused why] (c.refuse why) p
  /-- It breaks off. -/
  | abort (reading : c.activity = .reading) (read : Frame.read limit c.buffer = .uncountable) :
    Turn limit c p [] { c with activity := .aborted } p
  /-- It reads a chunk. -/
  | take {chunk rest} (reading : c.activity = .reading)
    (read : Frame.read limit c.buffer = .cut) (unread : c.unread = chunk :: rest) :
    Turn limit c p [] (c.take chunk rest) p
  /-- It closes because the peer has nothing more to send. -/
  | leave (reading : c.activity = .reading) (read : Frame.read limit c.buffer = .cut)
    (unread : c.unread = []) (ended : c.ended) :
    Turn limit c p [] { c with activity := .closed } p

/-- There is no turn to take: the connection is over, or it waits for an answer or for its peer. -/
def Rests (limit : Nat) (c : Connection) (p : Pool σ) : Prop :=
  ∀ events c' p', ¬ Turn limit c p events c' p'

variable {limit : Nat} {c c' : Connection} {p p' : Pool σ} {events trace : List Event}

theorem rests_of_over (h : c.isOver) : Rests limit c p := by
  rw [isOver, Bool.or_eq_true, decide_eq_true_eq, decide_eq_true_eq] at h
  have hserving : ∀ {id k}, c.activity ≠ .serving id k := by
    rcases h with h | h <;> (intro id k hk; rw [h] at hk; cases hk)
  have hreading : c.activity ≠ .reading := by
    rcases h with h | h <;> (intro hk; rw [h] at hk; cases hk)
  intro events c' p' ht
  cases ht with
  | answer serving _ => exact hserving serving
  | request reading _ => exact hreading reading
  | refuse reading _ => exact hreading reading
  | abort reading _ => exact hreading reading
  | take reading _ _ => exact hreading reading
  | leave reading _ _ _ => exact hreading reading

theorem advance_of_over (h : c.isOver) : c.advance limit p = (c, p) := by
  rw [isOver, Bool.or_eq_true, decide_eq_true_eq, decide_eq_true_eq] at h
  rw [advance.eq_def]
  split
  · rfl
  · rfl
  · next hs => rw [hs] at h; rcases h with h | h <;> cases h
  · next hr => rw [hr] at h; rcases h with h | h <;> cases h

theorem advance_serving {id : Nat} {keepAlive : Bool} (h : c.activity = .serving id keepAlive) :
    c.advance limit p =
      match p.answer? id with
      | none => (c, p)
      | some response => (c.respond response (keepAlive && !p.isClosing)).advance limit p := by
  rw [advance.eq_def]
  split
  · next hc => rw [h] at hc; cases hc
  · next hc => rw [h] at hc; cases hc
  · next hc =>
    rw [h] at hc
    cases hc
    rfl
  · next hc => rw [h] at hc; cases hc

theorem advance_reading (h : c.activity = .reading) :
    c.advance limit p =
      match Frame.read limit c.buffer with
      | .refused why => (c.refuse why, p)
      | .uncountable => ({ c with activity := .aborted }, p)
      | .request r size => (c.await p.service.next size r.isKeepAlive).advance limit (p.submit r).2
      | .cut =>
        match c.unread with
        | chunk :: rest => (c.take chunk rest).advance limit p
        | [] => if c.ended then ({ c with activity := .closed }, p) else (c, p) := by
  rw [advance.eq_def]
  split
  · next hc => rw [h] at hc; cases hc
  · next hc => rw [h] at hc; cases hc
  · next hc => rw [h] at hc; cases hc
  · split
    · next hf => rw [hf]
    · next hf => rw [hf]
    · next r _ hf => rw [hf, ← p.submit_fst r]
    · next hf =>
      rw [hf]
      split
      · next hu => rw [hu]
      · next hu => rw [hu]

/-- **To go on as far as possible begins with a turn**, if there is one. -/
theorem advance_of_turn (h : Turn limit c p events c' p') :
    c.advance limit p = c'.advance limit p' := by
  cases h with
  | answer serving answered => rw [advance_serving serving, answered]
  | request reading read => rw [advance_reading reading, read]
  | refuse reading read => rw [advance_reading reading, read, advance_of_over rfl]
  | abort reading read => rw [advance_reading reading, read, advance_of_over rfl]
  | take reading read unread => rw [advance_reading reading, read, unread]
  | leave reading read unread ended =>
    rw [advance_reading reading, read, unread, advance_of_over rfl]
    exact if_pos ended

theorem advance_of_rests (h : Rests limit c p) : c.advance limit p = (c, p) := by
  cases hc : c.activity with
  | closed => exact advance_of_over (by rw [isOver, hc]; rfl)
  | aborted => exact advance_of_over (by rw [isOver, hc]; rfl)
  | serving id keepAlive =>
    rw [advance_serving hc]
    cases ha : p.answer? id with
    | none => rfl
    | some x => exact absurd (.answer hc ha) (h _ _ _)
  | reading =>
    rw [advance_reading hc]
    cases hf : Frame.read limit c.buffer with
    | refused why => exact absurd (.refuse hc hf) (h _ _ _)
    | uncountable => exact absurd (.abort hc hf) (h _ _ _)
    | request r size => exact absurd (.request hc hf) (h _ _ _)
    | cut =>
      cases hu : c.unread with
      | cons chunk rest => exact absurd (.take hc hf hu) (h _ _ _)
      | nil =>
        cases he : c.ended with
        | true => exact absurd (.leave hc hf hu he) (h _ _ _)
        | false => rfl

/-- **Turns come to an end**: what holds where a connection rests, and holds before a turn if it
holds after it, always holds. -/
theorem turn_induction (limit : Nat) {motive : Connection → Pool σ → Prop}
    (rests : ∀ c p, Rests limit c p → motive c p)
    (turn : ∀ c p events c' p', Turn limit c p events c' p' → motive c' p' → motive c p)
    (c : Connection) (p : Pool σ) : motive c p := by
  have ended : ∀ c p, c.isOver → motive c p := fun c p h => rests c p (rests_of_over h)
  induction c, p using advance.induct limit with
  | case1 c p h => exact ended c p (by rw [isOver, h]; rfl)
  | case2 c p h => exact ended c p (by rw [isOver, h]; rfl)
  | case3 c p id keepAlive h ha =>
    refine rests c p fun events c' p' ht => ?_
    cases ht with
    | answer serving answered =>
      rw [h] at serving
      cases serving
      rw [ha] at answered
      cases answered
    | _ reading => rw [h] at reading; cases reading
  | case4 c p id keepAlive h response ha ih => exact turn _ _ _ _ _ (.answer h ha) ih
  | case5 c p h why hf => exact turn _ _ _ _ _ (.refuse h hf) (ended _ _ rfl)
  | case6 c p h hf => exact turn _ _ _ _ _ (.abort h hf) (ended _ _ rfl)
  | case7 c p h r size hf id p' hs ih =>
    refine turn _ _ _ _ _ (.request h hf) ?_
    rw [← p.submit_fst r, hs]
    exact ih
  | case8 c p h hf chunk rest hu ih => exact turn _ _ _ _ _ (.take h hf hu) ih
  | case9 c p h hf hu he => exact turn _ _ _ _ _ (.leave h hf hu he) (ended _ _ rfl)
  | case10 c p h hf hu he =>
    refine rests c p fun events c' p' ht => ?_
    cases ht with
    | answer serving _ => rw [h] at serving; cases serving
    | request _ read => rw [hf] at read; cases read
    | refuse _ read => rw [hf] at read; cases read
    | abort _ read => rw [hf] at read; cases read
    | take _ _ unread => rw [hu] at unread; cases unread
    | leave _ _ _ ended => exact he ended

/-! ### Courses -/

/-- Turns of a connection and stirs of the pool in any order, with what can be seen of them. -/
inductive Course (limit : Nat) (c₀ : Connection) (p₀ : Pool σ) :
    List Event → Connection → Pool σ → Prop where
  | start : Course limit c₀ p₀ [] c₀ p₀
  | turn {trace events : List Event} {c c' : Connection} {p p' : Pool σ}
    (course : Course limit c₀ p₀ trace c p) (step : Turn limit c p events c' p') :
    Course limit c₀ p₀ (trace ++ events) c' p'
  | stir {trace events : List Event} {c : Connection} {p p' : Pool σ}
    (course : Course limit c₀ p₀ trace c p) (step : p.Stir events p') :
    Course limit c₀ p₀ (trace ++ events) c p'

variable {c₀ : Connection} {p₀ : Pool σ}

theorem Turn.later (h : Turn limit c p events c' p') : p.Later p' := by
  cases h with
  | request _ _ => exact p.later_submit _
  | _ => exact .refl p

/-- **To go on as far as possible is a course**, and at its end the connection rests. -/
theorem Course.advance (h : Course limit c₀ p₀ trace c p) :
    ∃ events, Course limit c₀ p₀ (trace ++ events) (c.advance limit p).1 (c.advance limit p).2 ∧
      Rests limit (c.advance limit p).1 (c.advance limit p).2 := by
  induction c, p using turn_induction limit generalizing trace with
  | rests c p hr =>
    rw [advance_of_rests hr]
    exact ⟨[], by rwa [List.append_nil], hr⟩
  | turn c p events c' p' step ih =>
    obtain ⟨later, hc, hr⟩ := ih (h.turn step)
    rw [advance_of_turn step]
    exact ⟨events ++ later, by rwa [← List.append_assoc], hr⟩

end Connection

end HttpDispatch
