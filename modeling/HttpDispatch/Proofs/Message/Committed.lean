import HttpDispatch.Message.Response
import HttpDispatch.Proofs.Message.Fields

/-!
# Committed responses

A response that is committed stays committed, with the status, the fields and the body that it has
then. Only the wish to keep the connection may change; it decides the one `Connection` field that
is sent.

* `Response.Fixed`: a committed response and one of the same content;
* `Response.fixed_apply`, `Response.Evolves.fixed`: no step changes the content;
* `Response.getAll_connection`: what a response says about the connection.
-/

namespace HttpDispatch

namespace Response

/-- What a response tells apart from the fate of the connection. -/
def content (r : Response) : Status × Fields × Bytes := (r.status, r.fields, r.body)

/-- Both responses are committed and have the same status, fields and body. -/
structure Fixed (r s : Response) : Prop where
  before : r.committed
  after : s.committed
  content : s.content = r.content

variable {r s t : Response}

@[simp] theorem Fixed.refl (h : r.committed) : Fixed r r := ⟨h, h, rfl⟩

theorem Fixed.trans (h : Fixed r s) (k : Fixed s t) : Fixed r t :=
  ⟨h.before, k.after, k.content.trans h.content⟩

theorem Fixed.status (h : Fixed r s) : s.status = r.status := congrArg Prod.fst h.content

theorem fixed_change (h : r.committed) (f : Response → Response) : Fixed r (r.change f) := by
  rw [change, if_pos h]
  exact .refl h

/-- **A step leaves a committed response as it is**, the wish to keep the connection apart. -/
theorem fixed_apply (h : r.committed) (op : Op) : Fixed r (r.apply op).2 := by
  cases op with
  | setStatus status => exact fixed_change h fun r => { r with status }
  | addField name value =>
    exact fixed_change h fun r => { r with fields := r.fields.add name value }
  | setField name value =>
    exact fixed_change h fun r => { r with fields := r.fields.set name value }
  | write bytes => exact fixed_change h fun r => { r with body := r.body ++ bytes }
  | setBody bytes => exact fixed_change h fun r => { r with body := bytes }
  | send status contentType body =>
    have hsend : r.send status contentType body = (false, r) := if_pos h
    rw [apply, hsend]
    exact .refl h
  | commit => exact ⟨h, rfl, rfl⟩
  | setKeepAlive keepAlive => exact ⟨h, h, rfl⟩

@[simp] theorem applyAll_cons (op : Op) (ops : List Op) :
    r.applyAll (op :: ops) = (r.apply op).2.applyAll ops := rfl

@[simp] theorem applyAll_append (ops later : List Op) :
    r.applyAll (ops ++ later) = (r.applyAll ops).applyAll later := List.foldl_append

theorem fixed_applyAll : ∀ (ops : List Op) {r : Response}, r.committed → Fixed r (r.applyAll ops)
  | [], _, h => .refl h
  | op :: ops, r, h => by
    have h1 := fixed_apply h op
    rw [applyAll_cons]
    exact h1.trans (fixed_applyAll ops h1.after)

theorem Evolves.fixed (k : Evolves r s) (h : r.committed) : Fixed r s := by
  obtain ⟨ops, rfl⟩ := k
  exact fixed_applyAll ops h

/-- Whoever sends a response leaves it committed, even if somebody else has been faster. -/
@[simp] theorem committed_send (status : Status) (contentType : Option String) (body : Bytes) :
    (r.send status contentType body).2.committed := by
  unfold send
  split
  · assumption
  · rfl

/-! ### The fate of the connection -/

/-- **A response names the fate of the connection once**, whatever fields were written to it. -/
@[simp] theorem getAll_connection (r : Response) :
    r.sentFields.getAll "Connection" = [r.connection] :=
  Fields.getAll_set _ _ _

/-- A response says `keep-alive` if the connection is kept and `close` otherwise. -/
theorem getAll_connection_setKeepAlive (r : Response) (keepAlive : Bool) :
    (r.setKeepAlive keepAlive).sentFields.getAll "Connection" =
      [if keepAlive then "keep-alive" else "close"] :=
  getAll_connection _

end Response

end HttpDispatch
