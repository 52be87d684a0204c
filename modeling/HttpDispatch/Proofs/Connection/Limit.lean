import HttpDispatch.Proofs.Connection.Cuts

/-!
# The limit

A request whose head and declared body are larger together than the limit is refused, nothing is
dispatched for it and the connection closes, as long as the two sizes can be added. If they cannot,
the connection breaks off without an answer, unless it has seen before the end of the head that the
head alone is beyond the limit.

* `Connection.beginning`: what a connection has read after some chunks;
* `Connection.SeesLongHead`: some beginning stops within the head and is beyond the limit already;
* `Connection.advance_beyond_limit`: what a connection does with a request beyond the limit.
-/

namespace HttpDispatch

variable {σ : Type}

theorem Frame.declaredSize_of_some {r : Request} {h : Head} {n : Nat}
    (hlength : r.contentLength? = some n) : declaredSize r h = h.size + n := by
  rw [declaredSize, hlength, Option.getD_some]

namespace Connection

variable {limit n : Nat} {c : Connection} {p : Pool σ} {r : Request} {h : Head}

/-- What a connection has in its buffer after it has read some chunks. -/
def beginning (c : Connection) (k : Nat) : Bytes := c.buffer ++ (c.unread.take k).flatten

/-- Some beginning stops within the head and is beyond the limit already. -/
def SeesLongHead (limit : Nat) (c : Connection) (h : Head) : Prop :=
  ∃ k, limit < (c.beginning k).length ∧ (c.beginning k).length < h.size

@[simp] theorem beginning_zero : c.beginning 0 = c.buffer := by simp [beginning]

theorem beginning_take {chunk : Bytes} {rest : List Bytes} (hu : c.unread = chunk :: rest) (k : Nat) :
    (c.take chunk rest).beginning k = c.beginning (k + 1) := by
  simp [beginning, take, hu]

theorem length_buffer_le (c : Connection) (k : Nat) : c.buffer.length ≤ (c.beginning k).length := by
  simp [beginning]

theorem not_seesLongHead (hle : h.size ≤ c.buffer.length) : ¬ SeesLongHead limit c h := by
  rintro ⟨k, -, hlt⟩
  have := c.length_buffer_le k
  omega

/-- What has not been seen in the buffer is seen after the next chunk or not at all. -/
theorem seesLongHead_take {chunk : Bytes} {rest : List Bytes} (hu : c.unread = chunk :: rest)
    (hshort : c.buffer.length ≤ limit) :
    SeesLongHead limit (c.take chunk rest) h ↔ SeesLongHead limit c h := by
  constructor
  · rintro ⟨k, hk⟩
    exact ⟨k + 1, by rwa [← beginning_take hu]⟩
  · rintro ⟨k, hk, hlt⟩
    cases k with
    | zero =>
      rw [beginning_zero] at hk
      omega
    | succ k => exact ⟨k, by rw [beginning_take hu]; exact ⟨hk, hlt⟩⟩

/-- What a connection comes to at a request beyond the limit: if `answered` holds, it says so and
closes, and otherwise it breaks off. -/
def RefusesLarge (answered : Prop) (c c' : Connection) : Prop :=
  (answered ∧ c'.activity = .closed ∧ c'.sent = c.sent ++ [Refusal.tooLarge.response]) ∨
    (¬ answered ∧ c'.activity = .aborted ∧ c'.sent = c.sent)

/-- A head that has come as a whole is judged by the size that it declares. -/
theorem advance_of_head {r' : Request} {h' : Head} {u : Bytes} (reading : c.activity = .reading)
    (hb : Request.read c.buffer = .ok (r', h')) (hread : Request.read (c.buffer ++ u) = .ok (r, h))
    (hlength : r.contentLength? = some n) (hlimit : limit < h.size + n) :
    ∃ c', c.advance limit p = (c', p) ∧
      RefusesLarge (h.size + n ≤ Whole.maxSize ∨ SeesLongHead limit c h) c c' := by
  obtain ⟨hle, body, hbu⟩ := Request.read_append (u := u) hb
  rw [hread] at hbu
  obtain ⟨rfl, rfl⟩ := Prod.mk.inj (Except.ok.inj hbu)
  have hsize : Frame.declaredSize r' h = h.size + n := Frame.declaredSize_of_some hlength
  have hframe : Frame.read limit c.buffer = _ := Frame.read_of_ok hb
  rw [hsize, if_pos hlimit] at hframe
  by_cases hmax : Whole.maxSize < h.size + n
  · rw [if_pos hmax] at hframe
    rw [advance_of_turn (.abort reading hframe), advance_of_over rfl]
    refine ⟨_, rfl, .inr ⟨?_, rfl, rfl⟩⟩
    rintro (hcounted | hseen)
    · omega
    · exact not_seesLongHead hle hseen
  · rw [if_neg hmax] at hframe
    rw [advance_of_turn (.refuse reading hframe), advance_of_over rfl]
    exact ⟨_, rfl, .inl ⟨.inl (by omega), rfl, rfl⟩⟩

/-- **A request beyond the limit.** A connection reads, and of what its peer has sent, the head of a
request comes next, whose size is beyond the limit together with the length that it declares.

Nothing is dispatched for it. If the two sizes can be added, or a beginning of the head is seen to
be beyond the limit, the connection answers that the request is too large and closes, and says so;
otherwise it breaks off and writes nothing. -/
theorem advance_beyond_limit (reading : c.activity = .reading)
    (hread : Request.read (c.buffer ++ c.unread.flatten) = .ok (r, h))
    (hlength : r.contentLength? = some n) (hlimit : limit < h.size + n) :
    (∃ c', c.advance limit p = (c', p) ∧
      RefusesLarge (h.size + n ≤ Whole.maxSize ∨ SeesLongHead limit c h) c c') ∧
    Refusal.tooLarge.response.status = .payloadTooLarge ∧
    Refusal.tooLarge.response.sentFields.getAll "Connection" = ["close"] := by
  refine ⟨?_, rfl, Response.getAll_connection_setKeepAlive _ false⟩
  -- the connection reads chunks until it has the head or too much of it
  obtain ⟨chunks, hu⟩ : ∃ chunks, c.unread = chunks := ⟨_, rfl⟩
  induction chunks generalizing c with
  | nil =>
    have hb : Request.read c.buffer = .ok (r, h) := by simpa [hu] using hread
    exact advance_of_head reading hb hread hlength hlimit
  | cons chunk rest ih =>
    cases hb : Request.read c.buffer with
    | ok x => exact advance_of_head reading hb hread hlength hlimit
    | error fault =>
      cases fault with
      | malformed f =>
        rw [Request.read_malformed hb] at hread
        cases hread
      | incomplete =>
        have hshort := Request.size_of_incomplete hb hread
        have hframe : Frame.read limit c.buffer = _ := Frame.read_of_incomplete hb
        by_cases hlong : limit < c.buffer.length
        · rw [if_pos hlong] at hframe
          rw [advance_of_turn (.refuse reading hframe), advance_of_over rfl]
          have hseen : SeesLongHead limit c h := ⟨0, by rw [beginning_zero]; exact ⟨hlong, hshort⟩⟩
          exact ⟨_, rfl, .inl ⟨.inr hseen, rfl, rfl⟩⟩
        · rw [if_neg hlong] at hframe
          rw [advance_of_turn (.take reading hframe hu), ← seesLongHead_take hu (by omega)]
          have hrest : c.buffer ++ c.unread.flatten =
              (c.take chunk rest).buffer ++ (c.take chunk rest).unread.flatten := by
            rw [hu]
            simp [take]
          exact ih reading (hrest ▸ hread) rfl

/-- A head that declares a body of two thousand bytes, which is not sent. -/
def bulky : Bytes := Utf8.encode "POST / HTTP/1.1\r\nContent-Length: 2000\r\n\r\n"

/-- The declared length of a request at the front of the bytes, and the size of its head. -/
def sizes? (bytes : Bytes) : Option (Option Nat × Nat) :=
  (Request.read bytes).toOption.map fun x => (x.1.contentLength?, x.2.size)

theorem exists_read_of_sizes? {bytes : Bytes} {length : Option Nat} {size : Nat}
    (hsizes : sizes? bytes = some (length, size)) :
    ∃ r h, Request.read bytes = .ok (r, h) ∧ r.contentLength? = length ∧ h.size = size := by
  unfold sizes? at hsizes
  cases hread : Request.read bytes with
  | error fault => rw [hread] at hsizes; cases hsizes
  | ok x =>
    rw [hread] at hsizes
    cases hsizes
    exact ⟨x.1, x.2, rfl, rfl, rfl⟩

/-- The body is refused before it is sent. -/
theorem bulky_is_refused :
    ∃ c', { ofChunks [bulky.drop 20] with buffer := bulky.take 20 }.advance 1024 .idle =
        (c', .idle) ∧
      c'.activity = .closed ∧ c'.sent = [Refusal.tooLarge.response] := by
  obtain ⟨r, h, hread, hlength, hsize⟩ :=
    exists_read_of_sizes? (show sizes? bulky = some (some 2000, 41) by decide +kernel)
  have hstream : bulky.take 20 ++ [bulky.drop 20].flatten = bulky := by decide +kernel
  have hlimit : 1024 < h.size + 2000 := by omega
  obtain ⟨⟨c', hadvance, hrefuses⟩, -⟩ := advance_beyond_limit (p := Pool.idle)
    (c := { ofChunks [bulky.drop 20] with buffer := bulky.take 20 }) rfl
    (hstream.symm ▸ hread) hlength hlimit
  rcases hrefuses with ⟨-, hclosed, hsent⟩ | ⟨hnot, -, -⟩
  · exact ⟨c', hadvance, hclosed, hsent⟩
  · exact absurd (.inl (by rw [hsize]; decide)) hnot

/-- **A length that cannot be added is not answered**: the connection breaks off at a request that
is far beyond the limit. -/
theorem oversized_is_not_answered :
    sizes? oversized = some (some Whole.maxSize, 57) ∧ 1024 < 57 + Whole.maxSize ∧
      ((ofChunks [oversized]).advance 1024 .idle).1.sent = [] ∧
      ((ofChunks [oversized]).advance 1024 .idle).1.activity = .aborted := by
  have hframe : Frame.read 1024 oversized = .uncountable := by decide +kernel
  have hturn : Turn 1024 { ofChunks [] with buffer := oversized } .idle _ _ _ := .abort rfl hframe
  rw [advance_ofChunks, advance_of_turn hturn, advance_of_over rfl]
  exact ⟨by decide +kernel, by decide, rfl, rfl⟩

end Connection

end HttpDispatch
