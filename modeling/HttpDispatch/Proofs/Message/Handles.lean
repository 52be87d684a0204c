import Mathlib.Logic.Function.Basic
import HttpDispatch.Proofs.Message.Wire

/-!
# Handles of responses

Whoever has a handle of a response writes to the response itself, so that all steps through all of
its handles, in the order in which they are taken, are the steps of one response. The first of them
that commits it is told so, and what is sent from then on is settled but for one word.

* `Response.call`, `Response.callAll`: steps through handles of many responses;
* `Response.callAll_eq`: a response after them is what its own steps have made of it;
* `Response.told_iff`: who is told that the response was committed;
* `Response.encode_eq_connection`: where the fate of the connection stands on the wire;
* `Response.commits_once`: what holds from the first commitment on.
-/

namespace HttpDispatch

namespace Response

variable {r s : Response}

/-! ### Steps that commit -/

/-- A step is told that it committed the response if it commits and none did before. -/
@[simp] theorem answer_apply (r : Response) (op : Op) :
    (r.apply op).1 = (op.commits && !r.committed) := by
  cases op with
  | send status contentType body => cases h : r.committed <;> simp [apply, send, Op.commits, h]
  | commit => rfl
  | _ => rfl

@[simp] theorem committed_applyAll (r : Response) (ops : List Op) :
    (r.applyAll ops).committed = (r.committed || ops.any Op.commits) := by
  induction ops generalizing r with
  | nil => simp [applyAll]
  | cons op ops ih =>
    have hstep : (r.apply op).2.committed = (r.committed || op.commits) := by
      cases hr : r.committed with
      | true => exact (fixed_apply hr op).after
      | false => exact committed_apply_eq hr
    rw [applyAll_cons, ih, hstep, List.any_cons, Bool.or_assoc]

/-- What a step that sends leaves behind: its own status, body and content type, and of the fields
that were there those of other names. -/
structure AsSent (status : Status) (contentType : Option String) (body : Bytes) (r s : Response) :
    Prop where
  status : s.status = status
  body : s.body = body
  typed : ∀ value ∈ contentType, s.fields.getAll "Content-Type" = [value]
  untyped : contentType = none → s.fields = r.fields
  others : ∀ name, Text.sameName "Content-Type" name = false →
    s.fields.getAll name = r.fields.getAll name

theorem asSent_send (h : r.committed = false) (status : Status) (contentType : Option String)
    (body : Bytes) : AsSent status contentType body r (r.send status contentType body).2 := by
  cases contentType with
  | none =>
    have hsend : (r.send status none body).2 =
        { r with status, body, committed := true } := by simp [send, h]
    rw [hsend]
    exact ⟨rfl, rfl, by simp, fun _ => rfl, fun _ _ => rfl⟩
  | some value =>
    have hsend : (r.send status (some value) body).2 =
        { r with status, fields := r.fields.set "Content-Type" value, body, committed := true } := by
      simp [send, h]
    rw [hsend]
    refine ⟨rfl, rfl, ?_, by simp, fun name hname => Fields.getAll_set_of_ne hname⟩
    rintro _ ⟨⟩
    exact Fields.getAll_set ..

/-! ### The one word that may change -/

/-- The fields that are sent before the fate of the connection. -/
def otherFields (r : Response) : Fields :=
  (if r.body.isEmpty || r.hasContentType then r.fields
    else r.fields.add "Content-Type" "text/plain; charset=utf-8").erase "Connection"

/-- What stands on the wire before the fate of the connection. -/
def beforeConnection (r : Response) : Bytes :=
  (r.statusLine :: r.otherFields.toList.map fieldLine).flatMap (· ++ lineBreak)

/-- What stands on the wire behind the fate of the connection. -/
def afterConnection (r : Response) : Bytes :=
  fieldLine ("Content-Length", toString r.body.length) ++ lineBreak ++ lineBreak ++ r.body

/-- **The fate of the connection has a line of its own** on the wire. -/
theorem encode_eq_connection (r : Response) :
    r.encode = r.beforeConnection ++ (fieldLine ("Connection", r.connection) ++ lineBreak) ++
      r.afterConnection := by
  have hwire : r.wireFields.toList = r.otherFields.toList ++
      [("Connection", r.connection), ("Content-Length", toString r.body.length)] := by
    simp [wireFields, sentFields, otherFields, Fields.set, Fields.add]
  rw [encode_eq, hwire]
  simp [beforeConnection, afterConnection]

theorem around_connection (h : s.content = r.content) :
    s.beforeConnection = r.beforeConnection ∧ s.afterConnection = r.afterConnection := by
  obtain ⟨hstatus, hfields, hbody⟩ : s.status = r.status ∧ s.fields = r.fields ∧ s.body = r.body := by
    simpa [content] using h
  simp [beforeConnection, afterConnection, otherFields, statusLine, hasContentType, hstatus, hfields,
    hbody]

/-- Whether a step wants the connection kept, if it says so. -/
def Op.wish? : Op → Option Bool
  | .setKeepAlive keepAlive => some keepAlive
  | _ => none

/-- Whether the connection is to be kept after steps on a new response: what was wished last. -/
def lastWish (ops : List Op) : Bool := (ops.filterMap Op.wish?).getLast?.getD true

@[simp] theorem keepAlive_applyAll (r : Response) (ops : List Op) :
    (r.applyAll ops).keepAlive = (ops.filterMap Op.wish?).getLast?.getD r.keepAlive := by
  have hchange : ∀ {r : Response} {f : Response → Response}, (f r).keepAlive = r.keepAlive →
      (r.change f).keepAlive = r.keepAlive := by
    intro r f hf
    unfold change
    split
    · rfl
    · exact hf
  induction ops generalizing r with
  | nil => rfl
  | cons op ops ih =>
    have hstep : (r.apply op).2.keepAlive = op.wish?.getD r.keepAlive := by
      cases op with
      | setKeepAlive keepAlive => rfl
      | send status contentType body => cases h : r.committed <;> simp [apply, send, Op.wish?, h]
      | commit => rfl
      | _ => exact hchange rfl
    rw [applyAll_cons, ih, hstep]
    cases hwish : op.wish? with
    | none => rw [List.filterMap_cons_none hwish, Option.getD_none]
    | some keepAlive =>
      rw [List.filterMap_cons_some hwish, List.getLast?_cons, Option.getD_some, Option.getD_some]

/-! ### Steps through handles -/

variable {ι κ : Type} [DecidableEq κ] (on : ι → κ)

/-- A step through a handle: its answer, and all responses afterwards. The handle `h` is one of the
response `on h`. -/
def call (m : κ → Response) (c : ι × Op) : Bool × (κ → Response) :=
  let (answer, r) := (m (on c.1)).apply c.2
  (answer, Function.update m (on c.1) r)

/-- All responses after steps through handles, if they are new at the beginning. -/
def callAll (calls : List (ι × Op)) : κ → Response :=
  calls.foldl (fun m c => (call on m c).2) fun _ => {}

/-- What the next step is told after others. -/
def told (calls : List (ι × Op)) (c : ι × Op) : Bool := (call on (callAll on calls) c).1

/-- The steps that are taken on the response `p`. -/
def stepsOn (p : κ) (calls : List (ι × Op)) : List Op :=
  (calls.filter fun c => on c.1 = p).map (·.2)

variable {on} {before calls : List (ι × Op)} {c : ι × Op}

/-- **A response is what its own steps have made of it**, through whatever handles they were taken
and whatever was done to other responses. -/
theorem callAll_eq (calls : List (ι × Op)) (p : κ) :
    callAll on calls p = ({} : Response).applyAll (stepsOn on p calls) := by
  have hfrom : ∀ m : κ → Response, calls.foldl (fun m c => (call on m c).2) m p =
      (m p).applyAll (stepsOn on p calls) := by
    induction calls with
    | nil => exact fun _ => rfl
    | cons c calls ih =>
      intro m
      rw [List.foldl_cons, ih]
      by_cases hp : on c.1 = p
      · subst hp
        simp [stepsOn, call]
      · simp [stepsOn, call, hp, Function.update_of_ne (Ne.symm hp)]
  exact hfrom _

theorem callAll_concat (calls : List (ι × Op)) (c : ι × Op) :
    callAll on (calls ++ [c]) (on c.1) = ((callAll on calls (on c.1)).apply c.2).2 := by
  simp [callAll, call]

/-- **The first step that commits is told so**, and no other. -/
theorem told_iff : told on calls c = true ↔
    c.2.commits ∧ ∀ d ∈ calls, on d.1 = on c.1 → d.2.commits = false := by
  have hnone : (stepsOn on (on c.1) calls).any Op.commits = false ↔
      ∀ d ∈ calls, on d.1 = on c.1 → d.2.commits = false := by
    simp [stepsOn]
  have htold : told on calls c = ((callAll on calls (on c.1)).apply c.2).1 := rfl
  rw [htold, answer_apply, callAll_eq, committed_applyAll, ← hnone]
  simp

/-! ### From the first commitment on -/

/-- **A response is committed once.** Handles of any number of new responses are used in any order.
A step is told that it committed its response if and only if it is the first that commits it; if it
sends, the response is as it was sent. From then on no step of the response is told so, its status,
fields and body stay, and on the wire nothing changes but the fate of the connection, which is as it
was wished last. -/
theorem commits_once (on : ι → κ) (before : List (ι × Op)) (c : ι × Op) :
    (told on before c = true ↔
      c.2.commits ∧ ∀ d ∈ before, on d.1 = on c.1 → d.2.commits = false) ∧
    (told on before c = true →
      (∀ status contentType body, c.2 = .send status contentType body →
        AsSent status contentType body (callAll on before (on c.1))
          (callAll on (before ++ [c]) (on c.1))) ∧
      ∃ front back, ∀ after : List (ι × Op),
        (∀ d : ι × Op, on d.1 = on c.1 → told on (before ++ c :: after) d = false) ∧
        Fixed (callAll on (before ++ [c]) (on c.1)) (callAll on (before ++ c :: after) (on c.1)) ∧
        (callAll on (before ++ c :: after) (on c.1)).encode =
          front ++ Utf8.encode (Fields.renderField ("Connection",
            if lastWish (stepsOn on (on c.1) (before ++ c :: after)) then "keep-alive"
            else "close")) ++ back) := by
  refine ⟨told_iff, fun htold => ?_⟩
  have hcommits := (told_iff.mp htold).1
  refine ⟨?_, ?_⟩
  · intro status contentType body hsend
    have hopen : (callAll on before (on c.1)).committed = false := by
      have hanswer : ((callAll on before (on c.1)).apply c.2).1 = true := htold
      rw [answer_apply] at hanswer
      simpa [hcommits] using hanswer
    rw [callAll_concat, hsend]
    exact asSent_send hopen ..
  · have hcommitted : (callAll on (before ++ [c]) (on c.1)).committed := by
      rw [callAll_concat]
      exact committed_apply hcommits _
    have hfixed : ∀ after : List (ι × Op), Fixed (callAll on (before ++ [c]) (on c.1))
        (callAll on (before ++ c :: after) (on c.1)) := by
      intro after
      have hsteps : stepsOn on (on c.1) (before ++ c :: after) =
          stepsOn on (on c.1) (before ++ [c]) ++ stepsOn on (on c.1) after := by
        simp [stepsOn]
      rw [callAll_eq (before ++ c :: after), hsteps, applyAll_append, ← callAll_eq]
      exact fixed_applyAll _ hcommitted
    refine ⟨(callAll on (before ++ [c]) (on c.1)).beforeConnection,
      (callAll on (before ++ [c]) (on c.1)).afterConnection, fun after => ⟨?_, hfixed after, ?_⟩⟩
    · intro d hd
      rw [Bool.eq_false_iff]
      intro htold'
      have hc := (told_iff.mp htold').2 c (by simp) hd.symm
      rw [hcommits] at hc
      cases hc
    · have hkeep : (callAll on (before ++ c :: after) (on c.1)).keepAlive =
          lastWish (stepsOn on (on c.1) (before ++ c :: after)) := by
        rw [callAll_eq, keepAlive_applyAll]
        rfl
      obtain ⟨hfront, hback⟩ := around_connection (hfixed after).content
      rw [encode_eq_connection, hfront, hback, ← encode_renderField, connection, hkeep]

end Response

end HttpDispatch
