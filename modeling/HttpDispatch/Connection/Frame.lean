import HttpDispatch.Message.Request
import HttpDispatch.Message.Response

/-!
# Frames

How the bytes that a peer sends are cut into requests. `Frame.read` decides what is at the front of
the bytes that have come: a request with its whole body, too little to tell, or something that is
refused because it is malformed or too large. The size of a request is counted with overflow checks
on: a head and a body that are together larger than any count are none of these, and the connection
breaks off.

A request takes at least one byte and never more than there are (`size_pos_of_read`,
`size_le_of_read`), so that what is left behind it is shorter.
-/

namespace HttpDispatch

/-- Why bytes are refused. -/
inductive Refusal where
  | tooLarge
  | malformed (f : HeadFault)
  deriving DecidableEq, Repr

namespace Refusal

/-- The status that a refusal is answered with. -/
def status : Refusal → Status
  | .tooLarge => .payloadTooLarge
  | .malformed _ => .badRequest

/-- The wording of a refusal. -/
def message : Refusal → String
  | .tooLarge => "Request entity too large"
  | .malformed f => "Bad Request: " ++ (RequestFault.malformed f).message

/-- The answer to a refusal; it is the last one on its connection. -/
def response (x : Refusal) : Response :=
  (({} : Response).send x.status (some "text/plain; charset=utf-8")
    (Utf8.encode x.message)).2.setKeepAlive false

end Refusal

/-- What is at the front of the bytes that have come. -/
inductive Frame where
  /-- Too little to tell. -/
  | cut
  /-- Nothing that can be served. -/
  | refused (why : Refusal)
  /-- A request whose size is beyond what can be counted, found out where overflow is checked. -/
  | uncountable
  /-- A request with its body, and the size of both. -/
  | request (r : Request) (size : Nat)
  deriving DecidableEq, Repr

namespace Frame

/-- What a request declares with its head to be its size. -/
def declaredSize (r : Request) (h : Head) : Nat := h.size + r.contentLength?.getD 0

/-- What is at the front of a buffer, where a request may be as large as a limit. The sum of head
and body is taken before it is compared with the limit, and overflow is checked: a sum beyond the
greatest count is `uncountable`. -/
def read (limit : Nat) (buffer : Bytes) : Frame :=
  match Request.read buffer with
  | .error .incomplete => if limit < buffer.length then .refused .tooLarge else .cut
  | .error (.malformed f) => .refused (.malformed f)
  | .ok (r, h) =>
    let size := declaredSize r h
    if Whole.maxSize < size then .uncountable
    else if limit < size then .refused .tooLarge
    else if buffer.length < size then .cut
    else .request r size

variable {limit size : Nat} {buffer : Bytes} {r : Request}

/-- A request is as large as its head and body, within the limit and the buffer. -/
theorem read_eq_request (h : read limit buffer = .request r size) :
    ∃ head, Request.read buffer = .ok (r, head) ∧ size = declaredSize r head ∧
      size ≤ Whole.maxSize ∧ size ≤ limit ∧ size ≤ buffer.length := by
  unfold read at h
  split at h
  · split at h <;> cases h
  · cases h
  · rename_i r' head hr
    dsimp only at h
    split at h
    · cases h
    · split at h
      · cases h
      · split at h
        · cases h
        · cases h
          exact ⟨head, hr, rfl, by omega, by omega, by omega⟩

@[grind →] theorem size_pos_of_read (h : read limit buffer = .request r size) : 0 < size := by
  obtain ⟨head, -, rfl, -⟩ := read_eq_request h
  exact Nat.lt_of_lt_of_le head.size_pos (Nat.le_add_right _ _)

@[grind →] theorem size_le_of_read (h : read limit buffer = .request r size) :
    size ≤ buffer.length := by
  obtain ⟨-, -, -, -, -, h⟩ := read_eq_request h
  exact h

end Frame

end HttpDispatch
