import HttpDispatch.Proofs.Connection.Framing
import HttpDispatch.Proofs.Connection.Turn

/-!
# Pipelined requests

A client may send requests one behind the other, without waiting for answers. They are served one
after the other as they were written, up to the first that ends the connection, whatever their
bodies look like, however the bytes are cut into chunks, and whatever handlers do.

* `Written.due`: the requests of a client that are served;
* `Connection.Accounts`: the invariant of a course, which tells the requests that are served, the
  one that is being served, and those whose bytes are still to be read;
* `Connection.Course.accounts`: the invariant holds on every course;
* `Connection.Course.crash_answered`: a handler that crashes is answered for;
* `Connection.pipelining_keeps_framing`: what this means for a client.
-/

namespace HttpDispatch

variable {σ : Type}

namespace Written

/-- The requests that are served: those up to the first after which the client does not want to go
on. -/
def due : List Written → List Written
  | [] => []
  | w :: rest => if w.request.isKeepAlive then w :: due rest else [w]

/-- The bytes of requests, one behind the other. -/
def stream (ws : List Written) : Bytes := ws.flatMap bytes

@[simp] theorem stream_cons (w : Written) (rest : List Written) :
    stream (w :: rest) = w.bytes ++ stream rest := rfl

theorem due_append : ∀ {a : List Written} {b : List Written},
    (∀ w ∈ a, w.request.isKeepAlive) → due (a ++ b) = a ++ due b
  | [], _, _ => rfl
  | w :: a, b, h => by
    have hw : w.request.isKeepAlive := h w List.mem_cons_self
    rw [List.cons_append, due, if_pos hw, due_append fun v hv => h v (List.mem_cons_of_mem w hv)]
    rfl

theorem due_of_keepAlive {ws : List Written} (h : ∀ w ∈ ws, w.request.isKeepAlive) :
    due ws = ws := by
  have := due_append (b := []) h
  rwa [List.append_nil, due, List.append_nil] at this

theorem cons_prefix_due (w : Written) (rest : List Written) : [w] <+: due (w :: rest) := by
  rw [due]
  split
  · exact ⟨due rest, rfl⟩
  · exact List.prefix_refl _

theorem due_cons_of_close {w : Written} (h : ¬ w.request.isKeepAlive) (rest : List Written) :
    due (w :: rest) = [w] := by
  rw [due, if_neg h]

end Written

/-- A request that has been answered: its exchange, and the response that was written. -/
structure Served where
  id : Nat
  written : Written
  response : Response

namespace Served

/-- What can be seen of a request that has been answered. -/
def events (x : Served) : List Event :=
  [.dispatched x.id x.written.request, .answered x.id x.response]

/-- The response as it was written. -/
def reply (x : Served) : Response := x.response.setKeepAlive x.written.request.isKeepAlive

end Served

namespace Connection

/-- The exchange of a number is that of a request, and the request was handed to the dispatcher
once. -/
def Serves (p : Pool σ) (id : Nat) (w : Written) : Prop :=
  ∃ e, p.service.exchanges[id]? = some e ∧ e.request = w.request ∧ e.runs.length = 1

theorem Serves.later {p p' : Pool σ} {id : Nat} {w : Written} (h : Serves p id w)
    (k : p.Later p') : Serves p' id w := by
  obtain ⟨e, he, hr, hl⟩ := h
  obtain ⟨e', he', hlater⟩ := k.exchanges he
  exact ⟨e', he', hlater.request.trans hr, hlater.runs.trans hl⟩

/-- What a connection is doing, where the given requests are served, one may be being served, and
some are left: the bytes that it has not served are those of the requests that are left. -/
inductive Doing (served : List Served) (rest : List Written) (c : Connection) :
    Option (Nat × Written) → Prop where
  | reading (activity : c.activity = .reading)
    (kept : ∀ x ∈ served, x.written.request.isKeepAlive)
    (left : c.buffer ++ c.unread.flatten = Written.stream rest) : Doing served rest c none
  | serving {id : Nat} {w : Written} (activity : c.activity = .serving id w.request.isKeepAlive)
    (kept : ∀ x ∈ served, x.written.request.isKeepAlive)
    (left : c.buffer ++ c.unread.flatten = Written.stream rest) :
    Doing served rest c (some (id, w))
  | closed (activity : c.activity = .closed)
    (done : served.map Served.written = Written.due (served.map Served.written ++ rest)) :
    Doing served rest c none

/-- **What a connection has done** of the requests of a client: those that are served, the one that
is being served, and those that are left. -/
structure Accounts (ws : List Written) (served : List Served) (pending : Option (Nat × Written))
    (rest : List Written) (trace : List Event) (c : Connection) (p : Pool σ) : Prop where
  all : ws = served.map Served.written ++ (pending.toList.map Prod.snd ++ rest)
  seen : trace.filter Event.isOwn = served.flatMap Served.events ++
    pending.toList.map fun x => .dispatched x.1 x.2.request
  sent : c.sent = served.map Served.reply
  serves : ∀ x ∈ served, Serves p x.id x.written
  serving : ∀ x ∈ pending, Serves p x.1 x.2
  ended : c.ended
  isOpen : p.isClosing = false
  doing : Doing served rest c pending

section Steps

variable {limit : Nat} {ws rest : List Written} {served : List Served}
  {pending : Option (Nat × Written)} {trace events : List Event} {c c' : Connection}
  {p p' : Pool σ}

theorem Accounts.later (h : Accounts ws served pending rest trace c p) (k : p.Later p')
    (hevents : events.filter Event.isOwn = []) :
    Accounts ws served pending rest (trace ++ events) c p' where
  all := h.all
  seen := by rw [List.filter_append, hevents, List.append_nil, h.seen]
  sent := h.sent
  serves x hx := (h.serves x hx).later k
  serving x hx := (h.serving x hx).later k
  ended := h.ended
  isOpen := k.isClosing.trans h.isOpen
  doing := h.doing

/-- **The buffer of a connection that reads** holds too little to tell, or it begins with the next
request. -/
theorem frame_read (hlimit : limit ≤ Whole.maxSize) (hsize : ∀ w ∈ rest, w.bytes.length ≤ limit)
    (hleft : c.buffer ++ c.unread.flatten = Written.stream rest) :
    Frame.read limit c.buffer = .cut ∨ ∃ w more, rest = w :: more ∧
      Frame.read limit c.buffer = .request w.request w.bytes.length ∧
      c.buffer.drop w.bytes.length ++ c.unread.flatten = Written.stream more := by
  cases rest with
  | nil =>
    have hbuffer : c.buffer = [] := (List.append_eq_nil_iff.mp hleft).1
    rw [hbuffer]
    exact .inl rfl
  | cons w more =>
    have hread := w.frame_read hlimit (hsize w List.mem_cons_self) (Written.stream more)
    rw [← Written.stream_cons, ← hleft] at hread
    rcases Frame.read_prefix (.of_request hread) with hcut | heq
    · exact .inl hcut
    · rw [hread] at heq
      refine .inr ⟨w, more, rfl, heq, ?_⟩
      have hle := Frame.size_le_of_read heq
      rw [Written.stream_cons] at hleft
      have hdrop := congrArg (List.drop w.bytes.length) hleft
      rwa [List.drop_append_of_le_length hle, List.drop_left] at hdrop

theorem Accounts.take {chunk : Bytes} {chunks : List Bytes}
    (h : Accounts ws served none rest trace c p) (reading : c.activity = .reading)
    (unread : c.unread = chunk :: chunks) :
    Accounts ws served none rest trace (c.take chunk chunks) p where
  all := h.all
  seen := h.seen
  sent := h.sent
  serves := h.serves
  serving := h.serving
  ended := h.ended
  isOpen := h.isOpen
  doing := by
    cases h.doing with
    | reading _ kept left =>
      refine .reading reading kept ?_
      rw [← left, unread, List.flatten_cons, ← List.append_assoc]
      rfl
    | closed activity _ => rw [reading] at activity; cases activity

theorem Accounts.request {w : Written}
    (h : Accounts ws served none (w :: rest) trace c p)
    (kept : ∀ x ∈ served, x.written.request.isKeepAlive)
    (left : c.buffer.drop w.bytes.length ++ c.unread.flatten = Written.stream rest)
    (hroom : p.hasRoom w.request) :
    Accounts ws served (some (p.service.next, w)) rest (trace ++ p.taking w.request)
      (c.await p.service.next w.bytes.length w.request.isKeepAlive) (p.submit w.request).2 where
  all := h.all
  seen := by
    have htaking : (p.taking w.request).filter Event.isOwn =
        [.dispatched p.service.next w.request] := by
      rw [Pool.taking, if_pos hroom, List.filter_cons_of_pos rfl, Service.filter_crashes]
    simp [h.seen, htaking]
  sent := h.sent
  serves x hx := (h.serves x hx).later (p.later_submit _)
  serving x hx := by
    cases hx
    exact Pool.exchanges_submit_of_room hroom
  ended := h.ended
  isOpen := (p.later_submit _).isClosing.trans h.isOpen
  doing := .serving rfl kept left

theorem Accounts.answer {id : Nat} {w : Written} {x : Response}
    (h : Accounts ws served (some (id, w)) rest trace c p)
    (kept : ∀ x ∈ served, x.written.request.isKeepAlive)
    (left : c.buffer ++ c.unread.flatten = Written.stream rest) :
    Accounts ws (served ++ [⟨id, w, x⟩]) none rest (trace ++ [.answered id x])
      (c.respond x (w.request.isKeepAlive && !p.isClosing)) p where
  all := by
    rw [h.all, List.map_append, List.append_assoc]
    rfl
  seen := by
    rw [List.filter_append, h.seen, List.flatMap_append, List.append_assoc, List.append_assoc]
    rfl
  sent := by
    rw [respond, h.isOpen, Bool.not_false, Bool.and_true, h.sent, List.map_append]
    rfl
  serves y hy := by
    rcases List.mem_append.mp hy with hy | hy
    · exact h.serves y hy
    · rw [List.mem_singleton.mp hy]
      exact h.serving _ rfl
  serving _ hx := by cases hx
  ended := h.ended
  isOpen := h.isOpen
  doing := by
    have hactivity : (c.respond x (w.request.isKeepAlive && !p.isClosing)).activity =
        if w.request.isKeepAlive then .reading else .closed := by
      rw [respond, h.isOpen, Bool.not_false, Bool.and_true]
    by_cases hkeep : w.request.isKeepAlive
    · rw [if_pos hkeep] at hactivity
      refine .reading hactivity (fun y hy => ?_) left
      rcases List.mem_append.mp hy with hy | hy
      · exact kept y hy
      · rw [List.mem_singleton.mp hy]
        exact hkeep
    · rw [if_neg hkeep] at hactivity
      refine .closed hactivity ?_
      rw [List.map_append, List.append_assoc, Written.due_append (by simpa using kept)]
      exact congrArg _ (Written.due_cons_of_close hkeep rest).symm

theorem Accounts.leave (h : Accounts ws served none [] trace c p)
    (kept : ∀ x ∈ served, x.written.request.isKeepAlive) :
    Accounts ws served none [] trace { c with activity := .closed } p where
  all := h.all
  seen := h.seen
  sent := h.sent
  serves := h.serves
  serving := h.serving
  ended := h.ended
  isOpen := h.isOpen
  doing := .closed rfl (by rw [List.append_nil, Written.due_of_keepAlive (by simpa using kept)])

/-- **A turn keeps the accounts**, as long as there is room. -/
theorem Accounts.turn (hlimit : limit ≤ Whole.maxSize) (hsize : ∀ w ∈ ws, w.bytes.length ≤ limit)
    (h : Accounts ws served pending rest trace c p) (step : Turn limit c p events c' p')
    (hroom : ∀ id r, .turnedAway id r ∉ events) :
    ∃ served pending rest, Accounts ws served pending rest (trace ++ events) c' p' := by
  cases hdoing : h.doing with
  | closed activity _ =>
    have hover : c.isOver := by rw [isOver, activity]; rfl
    exact absurd step (rests_of_over hover _ _ _)
  | serving activity kept left =>
    cases step with
    | answer serving _ =>
      rw [activity] at serving
      cases serving
      exact ⟨_, _, _, h.answer kept left⟩
    | _ reading => rw [activity] at reading; cases reading
  | reading activity kept left =>
    have hrest : ∀ w ∈ rest, w.bytes.length ≤ limit := fun w hw =>
      hsize w (by rw [h.all]; exact List.mem_append_right _ hw)
    have hread := frame_read hlimit hrest left
    cases step with
    | answer serving _ => rw [activity] at serving; cases serving
    | take _ _ unread =>
      rw [List.append_nil]
      exact ⟨_, _, _, h.take activity unread⟩
    | request _ read =>
      rw [read] at hread
      rcases hread with hcut | ⟨w, more, rfl, heq, hleft⟩
      · cases hcut
      · cases heq
        refine ⟨_, _, _, h.request kept hleft ?_⟩
        by_cases hr : p.hasRoom w.request
        · exact hr
        · refine absurd ?_ (hroom p.service.next w.request)
          rw [Pool.taking, if_neg hr]
          exact List.mem_singleton_self _
    | refuse _ read =>
      rw [read] at hread
      rcases hread with hcut | ⟨w, more, -, heq, -⟩
      · cases hcut
      · cases heq
    | abort _ read =>
      rw [read] at hread
      rcases hread with hcut | ⟨w, more, -, heq, -⟩
      · cases hcut
      · cases heq
    | leave _ read unread _ =>
      cases rest with
      | nil =>
        rw [List.append_nil]
        exact ⟨_, _, _, h.leave kept⟩
      | cons w more =>
        have hframe := w.frame_read hlimit (hrest w List.mem_cons_self) (Written.stream more)
        rw [← Written.stream_cons, ← left, unread, List.flatten_nil, List.append_nil, read]
          at hframe
        cases hframe

/-- **The accounts of every course** of a connection whose client writes requests within the limit,
one behind the other, and of which none is turned away. -/
theorem Course.accounts {chunks : List Bytes} {p₀ : Pool σ} (hlimit : limit ≤ Whole.maxSize)
    (hsize : ∀ w ∈ ws, w.bytes.length ≤ limit) (hchunks : chunks.flatten = Written.stream ws)
    (hopen : p₀.isClosing = false) (course : Course limit (ofChunks chunks) p₀ trace c p)
    (hroom : ∀ id r, .turnedAway id r ∉ trace) :
    ∃ served pending rest, Accounts ws served pending rest trace c p := by
  induction course with
  | start =>
    refine ⟨[], none, ws, rfl, rfl, rfl, ?_, ?_, rfl, hopen, .reading rfl ?_ hchunks⟩
    · intro x hx; cases hx
    · intro x hx; cases hx
    · intro x hx; cases hx
  | turn course step ih =>
    have hbefore := ih fun id r hm => hroom id r (List.mem_append_left _ hm)
    obtain ⟨served, pending, rest, h⟩ := hbefore
    exact h.turn hlimit hsize step fun id r hm => hroom id r (List.mem_append_right _ hm)
  | stir course step ih =>
    have hbefore := ih fun id r hm => hroom id r (List.mem_append_left _ hm)
    obtain ⟨served, pending, rest, h⟩ := hbefore
    exact ⟨served, pending, rest, h.later step.later step.filter_events⟩

end Steps

/-! ### Crashes -/

section Crashes

variable {limit : Nat} {trace events before after : List Event} {c c' : Connection}
  {p p' : Pool σ} {id : Nat} {x : Response}

/-- An element of a list of two parts is in the first, with something behind it there, or it is in
the second. -/
theorem split_append {α : Type} {a b l r : List α} {x : α} (h : a ++ b = l ++ x :: r) :
    (∃ m, a = l ++ x :: m ∧ r = m ++ b) ∨ ∃ m, b = m ++ x :: r := by
  rcases List.append_eq_append_iff.mp h with ⟨m, -, hb⟩ | ⟨m, ha, hr⟩
  · exact .inr ⟨m, hb⟩
  · cases m with
    | nil => exact .inr ⟨[], hr.symm⟩
    | cons y m =>
      obtain ⟨rfl, rfl⟩ := List.cons.inj hr
      exact .inl ⟨m, ha, rfl⟩

theorem Turn.crashed (h : Turn limit c p events c' p') (hx : .crashed id x ∈ events) :
    p'.Buried id x ∧ ∀ j y, .answered j y ∉ events := by
  cases h with
  | request reading read =>
    exact ⟨Pool.buried_of_taking hx, p.not_answered_taking _⟩
  | answer serving answered => cases hx with | tail _ hx => cases hx
  | refuse reading read => cases hx with | tail _ hx => cases hx
  | abort reading read => cases hx
  | take reading read unread => cases hx
  | leave reading read unread ended => cases hx

theorem Turn.answered (h : Turn limit c p events c' p') {y : Response}
    (hy : .answered id y ∈ events) : p.answer? id = some y := by
  cases h with
  | answer serving answered =>
    cases hy with
    | head => exact answered
    | tail _ hy => cases hy
  | request reading read => exact absurd hy (p.not_answered_taking _ id y)
  | refuse reading read => cases hy with | tail _ hy => cases hy
  | abort reading read => cases hy
  | take reading read unread => cases hy
  | leave reading read unread ended => cases hy

/-- **A handler that crashes is answered for**: from then on the exchange has an answer, and what is
written to the client is that answer. -/
theorem Course.crash_answered {c₀ : Connection} {p₀ : Pool σ}
    (course : Course limit c₀ p₀ trace c p) (hx : trace = before ++ .crashed id x :: after) :
    p.Buried id x ∧ ∀ y, .answered id y ∈ after → Pool.AnswersCrash x y := by
  induction course generalizing before after with
  | start =>
    have := congrArg List.length hx
    rw [List.length_append, List.length_cons, List.length_nil] at this
    omega
  | turn course step ih =>
    rcases split_append hx with ⟨m, htrace, rfl⟩ | ⟨m, hevents⟩
    · obtain ⟨hburied, hanswered⟩ := ih htrace
      refine ⟨step.later.buried hburied, fun y hy => ?_⟩
      rcases List.mem_append.mp hy with hy | hy
      · exact hanswered y hy
      · obtain ⟨z, hz, ha⟩ := hburied.answer
        rw [step.answered hy] at hz
        cases hz
        exact ha
    · have hmem : .crashed id x ∈ m ++ .crashed id x :: after :=
        List.mem_append_right m List.mem_cons_self
      rw [← hevents] at hmem
      obtain ⟨hburied, hnone⟩ := step.crashed hmem
      refine ⟨hburied, fun y hy => absurd ?_ (hnone id y)⟩
      rw [hevents]
      exact List.mem_append_right m (List.mem_cons_of_mem _ hy)
  | stir course step ih =>
    rcases split_append hx with ⟨m, htrace, rfl⟩ | ⟨m, hevents⟩
    · obtain ⟨hburied, hanswered⟩ := ih htrace
      refine ⟨step.later.buried hburied, fun y hy => ?_⟩
      rcases List.mem_append.mp hy with hy | hy
      · exact hanswered y hy
      · exact absurd hy (step.not_answered id y)
    · have hmem : .crashed id x ∈ m ++ .crashed id x :: after :=
        List.mem_append_right m List.mem_cons_self
      rw [← hevents] at hmem
      refine ⟨step.buried hmem, fun y hy => absurd ?_ (step.not_answered id y)⟩
      rw [hevents]
      exact List.mem_append_right m (List.mem_cons_of_mem _ hy)

end Crashes

/-! ### What clients can rely on -/

section Clients

variable {limit : Nat} {ws : List Written} {trace : List Event} {c : Connection} {p : Pool σ}
  {served : List Served} {pending : Option (Nat × Written)} {rest : List Written}

theorem Accounts.prefix_due (h : Accounts ws served pending rest trace c p) :
    served.map Served.written ++ pending.toList.map Prod.snd <+: Written.due ws := by
  have hall := h.all
  cases h.doing with
  | reading activity kept left =>
    rw [hall, Written.due_append (by simpa using kept)]
    exact (List.prefix_append_right_inj _).mpr List.nil_prefix
  | serving activity kept left =>
    rw [hall, Written.due_append (by simpa using kept)]
    exact (List.prefix_append_right_inj _).mpr (Written.cons_prefix_due _ rest)
  | closed activity done =>
    refine ⟨[], ?_⟩
    rw [hall, Option.toList_none, List.map_nil, List.append_nil, List.append_nil, List.nil_append]
    exact done

theorem Accounts.rests (h : Accounts ws served pending rest trace c p) (hr : Rests limit c p) :
    (c.activity = .closed ∧ pending = none ∧ served.map Served.written = Written.due ws) ∨
      ∃ x ∈ pending, c.activity = .serving x.1 x.2.request.isKeepAlive ∧ p.answer? x.1 = none := by
  have hall := h.all
  cases h.doing with
  | reading activity kept left =>
    exfalso
    cases hf : Frame.read limit c.buffer with
    | refused why => exact hr _ _ _ (.refuse activity hf)
    | uncountable => exact hr _ _ _ (.abort activity hf)
    | request r size => exact hr _ _ _ (.request activity hf)
    | cut =>
      cases hu : c.unread with
      | cons chunk chunks => exact hr _ _ _ (.take activity hf hu)
      | nil => exact hr _ _ _ (.leave activity hf hu h.ended)
  | serving activity kept left =>
    refine .inr ⟨_, rfl, activity, ?_⟩
    cases ha : p.answer? _ with
    | none => rfl
    | some x => exact absurd (.answer activity ha) (hr _ _ _)
  | closed activity done =>
    exact .inl ⟨activity, rfl, by rw [hall]; exact done⟩

/-- **Pipelining keeps framing.** A client writes requests one behind the other, each as large as
its head declares and within the limit, in whatever chunks; the server is not shutting down, and
has room for each request. Whatever course things take, with handlers that succeed, fail, crash or
wait, of these requests some first are answered and at most one more is being served:

* each is dispatched once, as it was written and with its own body, after the one before it was
  answered, and nothing is dispatched that is not due;
* as many responses are written, in that order, and each says whether the connection is kept, which
  is so if the request asks for it;
* the buffer of a connection that reads begins where the next request does;
* once there is nothing left to do, all that is due is answered and the connection is closed, unless
  it waits for a handler; to go on as far as possible leads there.

A handler that crashes is answered for, by the response as it was committed or with a status 500,
and this is what is written before the next request is dispatched. -/
theorem pipelining_keeps_framing {chunks : List Bytes} {p₀ : Pool σ}
    (hlimit : limit ≤ Whole.maxSize) (hsize : ∀ w ∈ ws, w.bytes.length ≤ limit)
    (hchunks : chunks.flatten = Written.stream ws) (hopen : p₀.isClosing = false)
    (course : Course limit (ofChunks chunks) p₀ trace c p)
    (hroom : ∀ id r, .turnedAway id r ∉ trace) :
    (∃ (served : List Served) (pending : Option (Nat × Written)),
      trace.filter Event.isOwn = served.flatMap Served.events ++
        (pending.toList.map fun x => .dispatched x.1 x.2.request) ∧
      served.map Served.written ++ pending.toList.map Prod.snd <+: Written.due ws ∧
      c.sent = served.map Served.reply ∧
      (∀ x ∈ served, x.reply.sentFields.getAll "Connection" =
        [if x.written.request.isKeepAlive then "keep-alive" else "close"]) ∧
      (∀ x ∈ served, Serves p x.id x.written) ∧ (∀ x ∈ pending, Serves p x.1 x.2) ∧
      (c.activity = .reading →
        c.buffer ++ c.unread.flatten = Written.stream (ws.drop served.length)) ∧
      (Rests limit c p →
        (c.activity = .closed ∧ pending = none ∧ served.map Served.written = Written.due ws) ∨
          ∃ x ∈ pending,
            c.activity = .serving x.1 x.2.request.isKeepAlive ∧ p.answer? x.1 = none)) ∧
    (∀ before id x after, trace = before ++ .crashed id x :: after →
      (∃ y, p.answer? id = some y ∧ Pool.AnswersCrash x y) ∧
        ∀ y, .answered id y ∈ after → Pool.AnswersCrash x y) ∧
    ∃ events, Course limit (ofChunks chunks) p₀ (trace ++ events)
        (c.advance limit p).1 (c.advance limit p).2 ∧
      Rests limit (c.advance limit p).1 (c.advance limit p).2 := by
  refine ⟨?_, fun before id x after hx => ?_, course.advance⟩
  · obtain ⟨served, pending, rest, h⟩ := course.accounts hlimit hsize hchunks hopen hroom
    refine ⟨served, pending, h.seen, h.prefix_due, h.sent, fun x _ => ?_, h.serves, h.serving,
      fun hreading => ?_, h.rests⟩
    · exact Response.getAll_connection_setKeepAlive ..
    · have hall := h.all
      cases h.doing with
      | reading activity kept left =>
        have hlen : served.length = (served.map Served.written).length := (List.length_map _).symm
        rw [left, hall, hlen, List.drop_left]
        rfl
      | serving activity _ _ => rw [hreading] at activity; cases activity
      | closed activity _ => rw [hreading] at activity; cases activity
  · obtain ⟨hburied, hanswered⟩ := course.crash_answered hx
    exact ⟨hburied.answer, hanswered⟩

end Clients

/-- The size that the first `Content-Length` of a head declares, be its value text or not. -/
def firstLength? (h : Head) : Option Nat :=
  (h.fields.find? fun f => Text.sameName f.1 "content-length").bind fun f =>
    (Utf8.decode? f.2).bind Whole.readSize?

/-- The bytes are a head that is accepted as it stands, and whose first length declares nothing. -/
def IsBareHead (bytes : Bytes) : Prop :=
  ∃ bare info, Request.read bytes = .ok (bare, info) ∧ info.size = bytes.length ∧
    firstLength? info = none

instance (bytes : Bytes) : Decidable (IsBareHead bytes) :=
  match hr : Request.read bytes with
  | .error _ => .isFalse fun ⟨_, _, h, _⟩ => by rw [hr] at h; cases h
  | .ok (bare, info) =>
    decidable_of_iff (info.size = bytes.length ∧ firstLength? info = none)
      ⟨fun h => ⟨bare, info, hr, h⟩, fun ⟨_, _, h, k⟩ => by rw [hr] at h; cases h; exact k⟩

/-- A request whose body looks like one that would have the connection closed. -/
def upload : Bytes :=
  Utf8.encode "POST /upload HTTP/1.1\r\nContent-Length: 18\r\n\r\n" ++ farewell

/-- The request of `upload`. -/
def uploadRequest : Request :=
  ⟨.post, "/upload", none, 1, ⟨[("Content-Length", "18")]⟩, farewell⟩

/-- What a client sends that takes its leave and still goes on. -/
def upAndDown : Bytes := upload ++ (farewell ++ upload)

/-- A pool like `Pool.idle`, but with a route for uploads, whose handler crashes. -/
def crashing : Pool Unit :=
  let route : Route Unit := ⟨.of "/upload", .now fun _ => ExceptT.mk .crash, none, none⟩
  { Pool.idle with service := Pool.idle.service.addRoute route }

theorem exists_written_upAndDown : ∃ w v : Written, w.request = uploadRequest ∧
    v.request = farewellRequest ∧ Written.stream [w, v, w] = upAndDown ∧
    ∀ u ∈ [w, v, w], u.bytes.length ≤ 1024 := by
  have hframe : Frame.read 1024 upload = .request uploadRequest upload.length := by
    decide +kernel
  obtain ⟨w, hupload, hrequest⟩ := Written.exists_of_frame hframe
  obtain ⟨v, hfarewell, hrequest'⟩ := Written.exists_of_frame read_farewell
  refine ⟨w, v, hrequest, hrequest', ?_, fun u hu => ?_⟩
  · simp [Written.stream, hupload, hfarewell, upAndDown]
  · rcases hu with _ | ⟨_, _ | ⟨_, _ | ⟨_, hu⟩⟩⟩
    · rw [hupload]
      decide
    · rw [hfarewell]
      decide
    · rw [hupload]
      decide
    · cases hu

/-- The turns of a connection that reads three requests in two chunks, cut within the body of the
first. -/
theorem course_upAndDown : ∃ x y c p,
    Course 1024 (ofChunks [upAndDown.take 60, upAndDown.drop 60]) crashing
      [.dispatched 0 uploadRequest, .crashed 0 {}, .answered 0 x, .dispatched 1 farewellRequest,
        .answered 1 y] c p ∧ c.isOver := by
  have htaking : crashing.taking uploadRequest = [.dispatched 0 uploadRequest, .crashed 0 {}] := by
    decide +kernel
  obtain ⟨x, hx⟩ : ∃ x, (crashing.submit uploadRequest).2.answer? 0 = some x :=
    Option.isSome_iff_exists.mp (by decide +kernel)
  have htaking' : (crashing.submit uploadRequest).2.taking farewellRequest =
      [.dispatched 1 farewellRequest] := by
    decide +kernel
  obtain ⟨y, hy⟩ : ∃ y, ((crashing.submit uploadRequest).2.submit farewellRequest).2.answer? 1 =
      some y :=
    Option.isSome_iff_exists.mp (by decide +kernel)
  have hcut : Frame.read 1024 ([] ++ upAndDown.take 60) = .cut := by decide +kernel
  have hfirst : Frame.read 1024 ([] ++ upAndDown.take 60 ++ upAndDown.drop 60) =
      .request uploadRequest 63 := by
    decide +kernel
  have hsecond : Frame.read 1024 (([] ++ upAndDown.take 60 ++ upAndDown.drop 60).drop 63) =
      .request farewellRequest 18 := by
    decide +kernel
  have begun : Course 1024 (ofChunks [upAndDown.take 60, upAndDown.drop 60]) crashing [] _ _ :=
    .start
  have taken := (begun.turn (.take rfl rfl rfl)).turn (.take rfl hcut rfl)
  have uploaded := (taken.turn (.request rfl hfirst)).turn (.answer rfl hx)
  have answered := (uploaded.turn (.request rfl hsecond)).turn (.answer rfl hy)
  rw [htaking, htaking'] at answered
  exact ⟨x, y, _, _, answered, rfl⟩

/-- Of three requests two are served, although the bytes are cut within the body of the first: its
handler crashes, it is answered with a status 500, and the connection is kept. The second is
answered, and the connection is closed. The third is not dispatched. -/
theorem upload_is_answered_before_farewell :
    ∃ trace c p x y, Course 1024 (ofChunks [upAndDown.take 60, upAndDown.drop 60]) crashing
        trace c p ∧ Rests 1024 c p ∧ c.activity = .closed ∧
      trace.filter Event.isOwn = [.dispatched 0 uploadRequest, .answered 0 x,
        .dispatched 1 farewellRequest, .answered 1 y] ∧
      x.status = .internalServerError ∧
      (c.sent.map fun r => r.sentFields.getAll "Connection") = [["keep-alive"], ["close"]] := by
  obtain ⟨x, y, c, p, course, hover⟩ := course_upAndDown
  obtain ⟨w, v, hupload, hfarewell, hstream, hsize⟩ := exists_written_upAndDown
  have hkeep : w.request.isKeepAlive := by rw [hupload]; decide
  have hclose : ¬ v.request.isKeepAlive := by rw [hfarewell]; decide
  have hchunks : [upAndDown.take 60, upAndDown.drop 60].flatten = Written.stream [w, v, w] := by
    rw [hstream]
    decide +kernel
  obtain ⟨⟨served, pending, -, -, hsent, hsays, -, -, -, hrests⟩, hcrash, -⟩ :=
    pipelining_keeps_framing (by decide) hsize hchunks rfl course (by simp)
  have hrest : Rests 1024 c p := rests_of_over hover
  obtain ⟨-, hanswered⟩ := hcrash [.dispatched 0 uploadRequest] 0 {} _ rfl
  have hstatus : x.status = .internalServerError :=
    congrArg Prod.fst ((hanswered x List.mem_cons_self).sent rfl)
  rcases hrests hrest with ⟨hclosed, -, hserved⟩ | ⟨z, -, hserving, -⟩
  · rw [Written.due, if_pos hkeep, Written.due_cons_of_close hclose] at hserved
    obtain ⟨a, tail, rfl, rfl, htail⟩ := List.map_eq_cons_iff.mp hserved
    obtain ⟨b, none, rfl, rfl, hnone⟩ := List.map_eq_cons_iff.mp htail
    obtain rfl := List.map_eq_nil_iff.mp hnone
    refine ⟨_, c, p, x, y, course, hrest, hclosed, rfl, hstatus, ?_⟩
    rw [hsent, List.map_cons, List.map_cons, List.map_cons, List.map_cons, List.map_nil,
      List.map_nil, hsays a (by simp), hsays b (by simp), if_pos hkeep, if_neg hclose]
  · rw [isOver, hserving] at hover
    cases hover

/-- A head with two declared lengths, the first of which is no text. -/
def twoLengths : Bytes :=
  Utf8.encode "POST / HTTP/1.1\r\nContent-Length: " ++
    0xFF :: Utf8.encode "\r\nContent-Length: 5\r\n\r\n"

/-- **A length that is no text does not count**, even if it comes first: the request takes the
beginning of the next one for its body. -/
theorem first_length_may_not_count :
    IsBareHead twoLengths ∧ IsBareHead farewell ∧
      ∃ r c p, Course 1024 (ofChunks [twoLengths ++ farewell]) Pool.idle [.dispatched 0 r] c p ∧
        r.body = farewell.take 5 := by
  refine ⟨by decide +kernel, by decide +kernel, ?_⟩
  let r : Request := ⟨.post, "/", none, 1, ⟨[("Content-Length", "5")]⟩, farewell.take 5⟩
  have hread : Frame.read 1024 (twoLengths ++ farewell) = .request r (twoLengths.length + 5) := by
    decide +kernel
  have htaking : Pool.idle.taking r = [.dispatched 0 r] := by decide +kernel
  have begun : Course 1024 (ofChunks [twoLengths ++ farewell]) Pool.idle [] _ _ := .start
  have taken := begun.turn (.take rfl rfl rfl)
  have dispatched := taken.turn (.request rfl hread)
  rw [htaking] at dispatched
  exact ⟨r, _, _, dispatched, rfl⟩

end Connection

end HttpDispatch
