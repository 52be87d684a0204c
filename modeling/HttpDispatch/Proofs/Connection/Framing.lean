import HttpDispatch.Connection.Frame
import HttpDispatch.Proofs.Head.Prefix

/-!
# What is at the front of a stream

`Frame.read` looks at the bytes that have come so far, which are the beginning of all the bytes that
will ever come. This module says when the verdict on the beginning is the verdict on the whole.

* `Request.read_append`: what a beginning says about the request in front of the whole;
* `Frame.read_exact`: a request is framed by its own bytes, whatever comes behind them;
* `Frame.Steady`, `Frame.read_prefix`: the verdict on a beginning is the one on the whole, or there
  is too little to tell;
* `Written`, `Written.frame_read`, `Written.exists_of_frame`: requests as a client writes them, and
  that it is those that are framed as they are.
-/

namespace HttpDispatch

namespace Request

theorem read_ok_body {bytes : Bytes} {r : Request} {h : Head} (hr : read bytes = .ok (r, h)) :
    r.body = (bytes.drop h.size).take (r.contentLength?.getD 0) := by
  obtain ⟨-, rfl⟩ := read_ok_iff.mp hr
  rfl

theorem read_of_head {bytes : Bytes} {h : Head} (hr : Head.read bytes = .ok h) :
    read bytes = .ok ({ ofHead h with
      body := (bytes.drop h.size).take ((ofHead h).contentLength?.getD 0) }, h) :=
  read_ok_iff.mpr ⟨hr, rfl⟩

/-- **A head that lies within the beginning of a stream** is the head of the stream; of the body
there may be more. -/
theorem read_append {b u : Bytes} {r : Request} {h : Head} (hr : read b = .ok (r, h)) :
    h.size ≤ b.length ∧ ∃ body, read (b ++ u) = .ok ({ r with body := body }, h) := by
  obtain ⟨hh, rfl⟩ := read_ok_iff.mp hr
  obtain ⟨hle, hex⟩ := Head.read_exact hh
  have hbu : Head.read (b ++ u) = .ok h := by
    have := hex (b.drop h.size ++ u)
    rwa [← List.append_assoc, List.take_append_drop] at this
  exact ⟨hle, _, read_of_head hbu⟩

/-- **A head that does not lie within the beginning of a stream** is longer than that. -/
theorem size_of_incomplete {b u : Bytes} {r : Request} {h : Head}
    (hb : read b = .error .incomplete) (hr : read (b ++ u) = .ok (r, h)) : b.length < h.size := by
  refine Nat.lt_of_not_le fun hle => ?_
  obtain ⟨hh, -⟩ := read_ok_iff.mp hr
  obtain ⟨-, hex⟩ := Head.read_exact hh
  have hb' := hex (b.drop h.size)
  rw [List.take_append_of_le_length (by omega), List.take_append_drop] at hb'
  rw [read_incomplete_iff.mp hb] at hb'
  cases hb'

theorem read_malformed {b : Bytes} {f : HeadFault} (hb : read b = .error (.malformed f))
    (u : Bytes) : read (b ++ u) = .error (.malformed f) :=
  read_malformed_iff.mpr (Head.read_fault (read_malformed_iff.mp hb) u)

end Request

namespace Frame

variable {limit size : Nat} {r : Request} {h : Head} {b u t : Bytes}

@[simp] theorem declaredSize_withBody (r : Request) (body : Bytes) (h : Head) :
    declaredSize { r with body := body } h = declaredSize r h := rfl

/-! ### One verdict at a time -/

theorem read_of_incomplete (hr : Request.read t = .error .incomplete) :
    read limit t = if limit < t.length then .refused .tooLarge else .cut := by
  unfold read
  rw [hr]

theorem read_of_malformed {f : HeadFault} (hr : Request.read t = .error (.malformed f)) :
    read limit t = .refused (.malformed f) := by
  unfold read
  rw [hr]

theorem read_of_ok (hr : Request.read t = .ok (r, h)) :
    read limit t =
      if Whole.maxSize < declaredSize r h then .uncountable
      else if limit < declaredSize r h then .refused .tooLarge
      else if t.length < declaredSize r h then .cut
      else .request r (declaredSize r h) := by
  unfold read
  rw [hr]

/-! ### The beginning and the whole -/

/-- A request that lies within the beginning of a stream is the request of the stream. -/
theorem read_append_of_le (hb : Request.read b = .ok (r, h)) (hle : declaredSize r h ≤ b.length) :
    Request.read (b ++ u) = .ok (r, h) := by
  obtain ⟨hsize, body, hbu⟩ := Request.read_append (u := u) hb
  have hbody : body = r.body := by
    refine (Request.read_ok_body hbu).trans ?_
    rw [Request.read_ok_body hb, Request.contentLength?_withBody,
      List.drop_append_of_le_length hsize, List.take_append_of_le_length]
    rw [List.length_drop]
    unfold declaredSize at hle
    omega
  rw [hbu, hbody]

theorem read_whole (hr : Request.read t = .ok (r, h)) (hmax : declaredSize r h ≤ Whole.maxSize)
    (hlimit : declaredSize r h ≤ limit) (hle : declaredSize r h ≤ t.length) :
    read limit t = .request r (declaredSize r h) := by
  rw [read_of_ok hr, if_neg (Nat.not_lt.mpr hmax), if_neg (Nat.not_lt.mpr hlimit),
    if_neg (Nat.not_lt.mpr hle)]

/-- **A request is framed by its own bytes**: whatever comes behind them, the same request is
read. -/
theorem read_exact (hr : read limit t = .request r size) (more : Bytes) :
    read limit (t.take size ++ more) = .request r size := by
  obtain ⟨h, hread, rfl, hmax, hlimit, hle⟩ := read_eq_request hr
  have hlen : (t.take (declaredSize r h)).length = declaredSize r h := by
    rw [List.length_take, Nat.min_eq_left hle]
  have hhead : Head.read (t.take (declaredSize r h)) = .ok h := by
    obtain ⟨-, hex⟩ := Head.read_exact (Request.read_ok_iff.mp hread).1
    have := hex ((t.drop h.size).take (r.contentLength?.getD 0))
    rwa [← List.take_add] at this
  have hown : Request.read (t.take (declaredSize r h)) = .ok (r, h) := by
    obtain ⟨-, hr⟩ := Request.read_ok_iff.mp hread
    have h0 := Request.read_of_head hhead
    have h1 := read_append_of_le (u := t.drop (declaredSize r h)) h0
      (by rw [hlen, hr]; exact Nat.le_refl _)
    rw [List.take_append_drop, hread] at h1
    rw [h0, ← h1]
  refine read_whole (read_append_of_le hown (Nat.le_of_eq hlen.symm)) hmax hlimit ?_
  rw [List.length_append, hlen]
  exact Nat.le_add_right _ _

/-- A stream whose beginnings can be trusted: what is malformed is so within the limit, and a head
that is too large declares no body so large that the sizes of both cannot be added. -/
structure Steady (limit : Nat) (t : Bytes) : Prop where
  malformed : ∀ {f}, Request.read t = .error (.malformed f) →
    ∃ f', Request.read (t.take limit) = .error (.malformed f')
  countable : ∀ {r h}, Request.read t = .ok (r, h) → limit + 1 < h.size →
    declaredSize r h ≤ Whole.maxSize

theorem Steady.of_request (hr : read limit t = .request r size) : Steady limit t where
  malformed hm := by rw [read_of_malformed hm] at hr; cases hr
  countable {r' h'} ho hlt := by
    obtain ⟨h, hread, rfl, hmax, -, -⟩ := read_eq_request hr
    rw [hread] at ho
    cases ho
    exact hmax

/-- What does not end within the limit is too large, however much of it has come. -/
theorem read_of_long (hs : Steady limit (b ++ u)) (hb : Request.read b = .error .incomplete)
    (hlong : limit < b.length) : read limit (b ++ u) = .refused .tooLarge := by
  cases ht : Request.read (b ++ u) with
  | error fault =>
    cases fault with
    | incomplete => rw [read_of_incomplete ht, if_pos (by rw [List.length_append]; omega)]
    | malformed f =>
      obtain ⟨f', hf⟩ := hs.malformed ht
      rw [List.take_append_of_le_length (Nat.le_of_lt hlong)] at hf
      have := Request.read_malformed hf (b.drop limit)
      rw [List.take_append_drop, hb] at this
      cases this
  | ok p =>
    obtain ⟨r, h⟩ := p
    have hsize := Request.size_of_incomplete hb ht
    have hmax := hs.countable ht (by omega)
    have hdeclared : h.size ≤ declaredSize r h := Nat.le_add_right _ _
    rw [read_of_ok ht, if_neg (Nat.not_lt.mpr hmax), if_pos (by omega)]

/-- **The verdict on the beginning of a steady stream** is the verdict on the stream, or there is
too little to tell. -/
theorem read_prefix (hs : Steady limit (b ++ u)) :
    read limit b = .cut ∨ read limit b = read limit (b ++ u) := by
  cases hb : Request.read b with
  | error fault =>
    cases fault with
    | malformed f =>
      rw [read_of_malformed hb, read_of_malformed (Request.read_malformed hb u)]
      exact .inr rfl
    | incomplete =>
      rw [read_of_incomplete hb]
      by_cases hlong : limit < b.length
      · rw [if_pos hlong, read_of_long hs hb hlong]
        exact .inr rfl
      · exact .inl (if_neg hlong)
  | ok p =>
    obtain ⟨r, h⟩ := p
    by_cases hle : declaredSize r h ≤ b.length
    · have hlong : ¬ (b ++ u).length < declaredSize r h := by rw [List.length_append]; omega
      rw [read_of_ok hb, read_of_ok (read_append_of_le hb hle), if_neg (Nat.not_lt.mpr hle),
        if_neg hlong]
      exact .inr rfl
    · obtain ⟨-, body, hbu⟩ := Request.read_append (u := u) hb
      have hread : read limit (b ++ u) = _ := read_of_ok hbu
      rw [declaredSize_withBody] at hread
      rw [read_of_ok hb, hread, if_pos (Nat.lt_of_not_le hle)]
      by_cases hmax : Whole.maxSize < declaredSize r h
      · rw [if_pos hmax, if_pos hmax]
        exact .inr rfl
      · rw [if_neg hmax, if_neg hmax]
        by_cases hlimit : limit < declaredSize r h
        · rw [if_pos hlimit, if_pos hlimit]
          exact .inr rfl
        · exact .inl (if_neg hlimit)

end Frame

/-! ### Requests as they are written -/

/-- A request as a client writes it: a head that is accepted as it stands, and as many bytes of a
body as it declares. -/
structure Written where
  head : Bytes
  bare : Request
  info : Head
  accepted : Request.read head = .ok (bare, info)
  whole : info.size = head.length
  body : Bytes
  length_body : body.length = bare.contentLength?.getD 0

namespace Written

variable (w : Written)

/-- The bytes of the request. -/
def bytes : Bytes := w.head ++ w.body

/-- The request with its body. -/
def request : Request := { w.bare with body := w.body }

/-- **A request is read as it was written**, whatever comes behind it. -/
@[simp] theorem read_request (more : Bytes) :
    Request.read (w.bytes ++ more) = .ok (w.request, w.info) := by
  obtain ⟨hle, body, hr⟩ := Request.read_append (u := w.body ++ more) w.accepted
  have hbody : body = w.body := by
    refine (Request.read_ok_body hr).trans ?_
    rw [Request.contentLength?_withBody, ← w.length_body, w.whole, List.drop_left, List.take_left]
  rw [bytes, List.append_assoc, hr, hbody, request]

@[simp] theorem declaredSize_eq : Frame.declaredSize w.request w.info = w.bytes.length := by
  simp [Frame.declaredSize, request, w.whole, bytes, w.length_body]

theorem frame_read {limit : Nat} (hlimit : limit ≤ Whole.maxSize) (hsize : w.bytes.length ≤ limit)
    (more : Bytes) :
    Frame.read limit (w.bytes ++ more) = .request w.request w.bytes.length := by
  rw [← w.declaredSize_eq] at hsize ⊢
  refine Frame.read_whole (w.read_request more) (Nat.le_trans hsize hlimit) hsize ?_
  rw [w.declaredSize_eq, List.length_append]
  exact Nat.le_add_right _ _

/-- **What is framed as a whole** is a request as a client writes it. -/
theorem exists_of_frame {limit : Nat} {bytes : Bytes} {r : Request}
    (h : Frame.read limit bytes = .request r bytes.length) :
    ∃ w : Written, w.bytes = bytes ∧ w.request = r := by
  obtain ⟨info, hread, hsize, -⟩ := Frame.read_eq_request h
  obtain ⟨hhead, hr⟩ := Request.read_ok_iff.mp hread
  obtain ⟨hle, hexact⟩ := Head.read_exact hhead
  have hown : Head.read (bytes.take info.size) = .ok info := by
    have := hexact []
    rwa [List.append_nil] at this
  have hlen : (bytes.take info.size).length = info.size := by
    rw [List.length_take, Nat.min_eq_left hle]
  have hlength : r.contentLength? = (Request.ofHead info).contentLength? := by
    rw [hr, Request.contentLength?_withBody]
  have hbody : (bytes.drop info.size).length = (Request.ofHead info).contentLength?.getD 0 := by
    rw [List.length_drop, hsize, Frame.declaredSize, hlength]
    omega
  rw [← hbody, List.take_length] at hr
  exact ⟨⟨_, _, info, Request.read_of_head hown, hlen.symm, bytes.drop info.size, hbody⟩,
    List.take_append_drop _ _, hr.symm⟩

end Written

/-- A request without a body after which the client does not want to go on. -/
def farewell : Bytes := Utf8.encode "GET / HTTP/1.0\r\n\r\n"

/-- The request of `farewell`. -/
def farewellRequest : Request := ⟨.get, "/", none, 0, .empty, []⟩

theorem read_farewell : Frame.read 1024 farewell = .request farewellRequest farewell.length := by
  decide +kernel

end HttpDispatch
