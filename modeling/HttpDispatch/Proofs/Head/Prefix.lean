import HttpDispatch.Message.Request

/-!
# Heads are decided by their own bytes

A scan is *decided* if its verdict, once there is one, does not depend on what follows: what it
reads it reads the same whatever comes behind the bytes it consumed, and a fault stays the same
fault when more bytes come. Only `Stop.cut` may turn into something else.

Scans that look at the byte behind what they consume (`takeWhile`, `skipEmptyLines`) are not
decided by themselves (`Peeking`); they are as soon as a decided scan follows that needs a byte.

* `decided_bind`, `decided_peek`: the two ways in which scans are put together;
* `decided_head`: the scan of a request head is decided;
* `Head.read_exact`, `Head.read_fault`: what this says about `Head.read`;
* `Request.read_ok_iff`, `Request.read_malformed_iff`, `Request.read_incomplete_iff`: the request in
  front of a buffer, by its head.
-/

namespace HttpDispatch

namespace Scan

variable {α β : Type}

/-- **A scan that is decided by the bytes it consumes.** -/
structure Decided (m : Scan α) : Prop where
  exact : ∀ {bytes a rest}, m.run bytes = .ok (a, rest) →
    ∃ used, bytes = used ++ rest ∧ ∀ more, m.run (used ++ more) = .ok (a, more)
  fault : ∀ {bytes f}, m.run bytes = .error (.fault f) →
    ∀ more, m.run (bytes ++ more) = .error (.fault f)

/-- A scan that also looks at the byte behind those it consumes. -/
structure Peeking (m : Scan α) : Prop where
  exact : ∀ {bytes a x rest}, m.run bytes = .ok (a, x :: rest) →
    ∃ used, bytes = used ++ x :: rest ∧
      ∀ more, m.run (used ++ x :: more) = .ok (a, x :: more)
  fault : ∀ {bytes f}, m.run bytes = .error (.fault f) →
    ∀ more, m.run (bytes ++ more) = .error (.fault f)

theorem run_bind_ok {m : Scan α} {k : α → Scan β} {bytes rest : Bytes} {b : β}
    (h : (m >>= k).run bytes = .ok (b, rest)) :
    ∃ a mid, m.run bytes = .ok (a, mid) ∧ (k a).run mid = .ok (b, rest) := by
  rw [StateT.run_bind] at h
  cases hm : m.run bytes with
  | error s => rw [hm] at h; cases h
  | ok p => rw [hm] at h; exact ⟨p.1, p.2, rfl, h⟩

theorem run_bind_fault {m : Scan α} {k : α → Scan β} {bytes : Bytes} {f : HeadFault}
    (h : (m >>= k).run bytes = .error (.fault f)) :
    m.run bytes = .error (.fault f) ∨
      ∃ a mid, m.run bytes = .ok (a, mid) ∧ (k a).run mid = .error (.fault f) := by
  rw [StateT.run_bind] at h
  cases hm : m.run bytes with
  | error s =>
    rw [hm] at h
    cases h
    exact .inl rfl
  | ok p => rw [hm] at h; exact .inr ⟨p.1, p.2, rfl, h⟩

theorem run_bind_of_ok {m : Scan α} {k : α → Scan β} {bytes mid : Bytes} {a : α}
    (h : m.run bytes = .ok (a, mid)) : (m >>= k).run bytes = (k a).run mid := by
  rw [StateT.run_bind, h]; rfl

theorem run_bind_of_error {m : Scan α} {k : α → Scan β} {bytes : Bytes} {s : Stop}
    (h : m.run bytes = .error s) : (m >>= k).run bytes = .error s := by
  rw [StateT.run_bind, h]; rfl

/-! ### Putting scans together -/

theorem decided_pure (a : α) : Decided (pure a) where
  exact h := by
    cases h
    exact ⟨[], rfl, fun more => rfl⟩
  fault h := by cases h

theorem decided_refuse (f : HeadFault) : Decided (refuse f : Scan α) where
  exact h := by cases h
  fault h more := by cases h; rfl

theorem decided_ite {c : Prop} [Decidable c] {m n : Scan α} (hm : Decided m) (hn : Decided n) :
    Decided (if c then m else n) := by
  split
  · exact hm
  · exact hn

theorem decided_bind {m : Scan α} {k : α → Scan β} (hm : Decided m) (hk : ∀ a, Decided (k a)) :
    Decided (m >>= k) where
  exact h := by
    obtain ⟨a, mid, h1, h2⟩ := run_bind_ok h
    obtain ⟨u, rfl, hu⟩ := hm.exact h1
    obtain ⟨v, rfl, hv⟩ := (hk a).exact h2
    refine ⟨u ++ v, (List.append_assoc ..).symm, fun more => ?_⟩
    rw [List.append_assoc, run_bind_of_ok (hu (v ++ more))]
    exact hv more
  fault h more := by
    rcases run_bind_fault h with h1 | ⟨a, mid, h1, h2⟩
    · exact run_bind_of_error (hm.fault h1 more)
    · obtain ⟨u, rfl, hu⟩ := hm.exact h1
      rw [List.append_assoc, run_bind_of_ok (hu (mid ++ more))]
      exact (hk a).fault h2 more

/-- **A scan that peeks is decided together with one that needs a byte**: the byte that was looked
at is then consumed as well. -/
theorem decided_peek {m : Scan α} {k : α → Scan β} (hm : Peeking m) (hk : ∀ a, Decided (k a))
    (needs : ∀ a, (k a).run [] = .error .cut) : Decided (m >>= k) where
  exact {bytes b rest} h := by
    obtain ⟨a, mid, h1, h2⟩ := run_bind_ok h
    obtain ⟨v, rfl, hv⟩ := (hk a).exact h2
    cases v with
    | nil =>
      have := (needs a).symm.trans (hv [])
      cases this
    | cons x v =>
      obtain ⟨u, rfl, hu⟩ := hm.exact h1
      refine ⟨u ++ x :: v, by rw [List.append_assoc]; rfl, fun more => ?_⟩
      have hx : u ++ x :: v ++ more = u ++ x :: (v ++ more) := by rw [List.append_assoc]; rfl
      rw [hx, run_bind_of_ok (hu (v ++ more))]
      exact hv more
  fault {bytes f} h more := by
    rcases run_bind_fault h with h1 | ⟨a, mid, h1, h2⟩
    · exact run_bind_of_error (hm.fault h1 more)
    · cases mid with
      | nil =>
        rw [needs a] at h2
        cases h2
      | cons x mid =>
        obtain ⟨u, rfl, hu⟩ := hm.exact h1
        have hx : u ++ x :: mid ++ more = u ++ x :: (mid ++ more) := by rw [List.append_assoc]; rfl
        rw [hx, run_bind_of_ok (hu (mid ++ more))]
        exact (hk a).fault h2 more

theorem needs_bind {m : Scan α} {k : α → Scan β} (h : m.run [] = .error .cut) :
    (m >>= k).run [] = .error .cut := run_bind_of_error h

theorem needs_takeWhile {p : UInt8 → Bool} {k : Bytes → Scan β}
    (h : (k []).run [] = .error .cut) : (takeWhile p >>= k).run [] = .error .cut := h

/-! ### Bytes -/

@[simp] theorem run_next_nil : next.run [] = .error .cut := rfl

theorem decided_next : Decided next where
  exact {bytes a rest} h := by
    cases bytes with
    | nil => cases h
    | cons b r =>
      cases h
      exact ⟨[_], rfl, fun more => rfl⟩
  fault {bytes f} h := by
    cases bytes with
    | nil => cases h
    | cons b r => cases h

theorem decided_expect (b : UInt8) (f : HeadFault) : Decided (expect b f) :=
  decided_bind decided_next fun _ => decided_ite (decided_refuse f) (decided_pure ())

theorem run_takeWhile (p : UInt8 → Bool) (bytes : Bytes) :
    (takeWhile p).run bytes = .ok (bytes.takeWhile p, bytes.dropWhile p) := rfl

theorem peeking_takeWhile (p : UInt8 → Bool) : Peeking (takeWhile p) where
  exact {bytes a x rest} h := by
    rw [run_takeWhile] at h
    injection h with h
    obtain ⟨rfl, hrest⟩ := Prod.mk.inj h
    have hx : p x = false := by
      have hne : bytes.dropWhile p ≠ [] := by rw [hrest]; exact List.cons_ne_nil _ _
      simpa only [hrest, List.head_cons] using List.head_dropWhile_not p hne
    refine ⟨bytes.takeWhile p, by rw [← hrest, List.takeWhile_append_dropWhile], fun more => ?_⟩
    have hall : ∀ b ∈ bytes.takeWhile p, p b = true := List.all_eq_true.mp List.all_takeWhile
    rw [run_takeWhile, List.takeWhile_append_of_pos hall, List.dropWhile_append_of_pos hall,
      List.takeWhile_cons_of_neg (by simp [hx]), List.dropWhile_cons_of_neg (by simp [hx]),
      List.append_nil]
  fault h := by cases h

/-! ### Empty lines -/

theorem afterEmptyLines_cons (b : UInt8) (r : Bytes) :
    afterEmptyLines (b :: r) =
      if b = 0x0A then afterEmptyLines r
      else if b = 0x0D then
        match r with
        | [] => .error .cut
        | c :: r2 => if c = 0x0A then afterEmptyLines r2 else .error (.fault .newLine)
      else .ok (b :: r) := by
  rw [afterEmptyLines.eq_def]
  rfl

theorem afterEmptyLines_ok : ∀ {bytes rest : Bytes}, afterEmptyLines bytes = .ok rest →
    ∃ used x r, rest = x :: r ∧ bytes = used ++ x :: r ∧
      ∀ more, afterEmptyLines (used ++ x :: more) = .ok (x :: more)
  | [], _, h => by cases h
  | b :: r, rest, h => by
    rw [afterEmptyLines_cons] at h
    split at h
    · next hb =>
      obtain ⟨used, x, t, rfl, rfl, hu⟩ := afterEmptyLines_ok h
      refine ⟨b :: used, x, t, rfl, rfl, fun more => ?_⟩
      rw [List.cons_append, afterEmptyLines_cons, if_pos hb]
      exact hu more
    · next hb =>
      split at h
      · next hc =>
        split at h
        · cases h
        · next c r2 =>
          split at h
          · next hl =>
            obtain ⟨used, x, t, rfl, rfl, hu⟩ := afterEmptyLines_ok h
            refine ⟨b :: c :: used, x, t, rfl, rfl, fun more => ?_⟩
            rw [List.cons_append, List.cons_append, afterEmptyLines_cons, if_neg hb, if_pos hc]
            dsimp only
            rw [if_pos hl]
            exact hu more
          · cases h
      · next hc =>
        cases h
        refine ⟨[], b, r, rfl, rfl, fun more => ?_⟩
        rw [List.nil_append, afterEmptyLines_cons, if_neg hb, if_neg hc]

theorem afterEmptyLines_fault : ∀ {bytes : Bytes} {f : HeadFault},
    afterEmptyLines bytes = .error (.fault f) →
      ∀ more, afterEmptyLines (bytes ++ more) = .error (.fault f)
  | [], _, h, _ => by cases h
  | b :: r, f, h, more => by
    rw [List.cons_append, afterEmptyLines_cons]
    rw [afterEmptyLines_cons] at h
    split at h
    · next hb =>
      rw [if_pos hb]
      exact afterEmptyLines_fault h more
    · next hb =>
      rw [if_neg hb]
      split at h
      · next hc =>
        rw [if_pos hc]
        split at h
        · cases h
        · next c r2 =>
          rw [List.cons_append]
          dsimp only
          split at h
          · next hl =>
            rw [if_pos hl]
            exact afterEmptyLines_fault h more
          · next hl =>
            rw [if_neg hl]
            exact h
      · cases h

theorem run_skipEmptyLines (bytes : Bytes) :
    skipEmptyLines.run bytes = (afterEmptyLines bytes).map fun r => ((), r) := by
  unfold skipEmptyLines
  rw [StateT.run_bind, StateT.run_get, pure_bind]
  cases afterEmptyLines bytes <;> rfl

theorem peeking_skipEmptyLines : Peeking skipEmptyLines where
  exact {bytes a x rest} h := by
    rw [run_skipEmptyLines] at h
    cases hr : afterEmptyLines bytes with
    | error s => rw [hr] at h; cases h
    | ok r =>
      rw [hr] at h
      cases h
      obtain ⟨used, y, t, hy, rfl, hu⟩ := afterEmptyLines_ok hr
      cases hy
      refine ⟨used, rfl, fun more => ?_⟩
      rw [run_skipEmptyLines, hu more]
      rfl
  fault {bytes f} h more := by
    rw [run_skipEmptyLines] at h ⊢
    cases hr : afterEmptyLines bytes with
    | error s =>
      rw [hr] at h
      cases h
      rw [afterEmptyLines_fault hr more]
      rfl
    | ok r => rw [hr] at h; cases h

/-! ### The parts of a head -/

theorem decided_method : Decided method := by
  refine decided_peek (peeking_takeWhile _) (fun name => ?_) fun name => needs_bind run_next_nil
  exact decided_bind decided_next fun b => decided_ite (decided_refuse _) (decided_pure _)

theorem decided_target : Decided target := by
  refine decided_peek (peeking_takeWhile _) (fun bytes => ?_) fun bytes => needs_bind run_next_nil
  refine decided_bind decided_next fun b => decided_ite (decided_refuse _) ?_
  cases Utf8.decode? bytes with
  | none => exact decided_refuse _
  | some s => exact decided_pure _

theorem run_version (bytes : Bytes) :
    version.run bytes =
      if 8 ≤ bytes.length then
        if bytes.take 8 = versionStem ++ [0x31] then .ok (1, bytes.drop 8)
        else if bytes.take 8 = versionStem ++ [0x30] then .ok (0, bytes.drop 8)
        else .error (.fault .version)
      else if bytes.isPrefixOf versionStem then .error .cut
      else .error (.fault .version) := by
  show (if 8 ≤ bytes.length then
      (do
        set (bytes.drop 8)
        if bytes.take 8 = versionStem ++ [0x31] then return 1
        else if bytes.take 8 = versionStem ++ [0x30] then return 0
        else refuse .version)
    else if bytes.isPrefixOf versionStem then throw .cut
    else (refuse .version : Scan Nat)).run bytes = _
  split
  · show (if bytes.take 8 = versionStem ++ [0x31] then return 1
      else if bytes.take 8 = versionStem ++ [0x30] then return 0
      else (refuse .version : Scan Nat)).run (bytes.drop 8) = _
    split
    · rfl
    · split <;> rfl
  · split <;> rfl

/-- Fewer than eight bytes that do not begin a version are no beginning of one. -/
theorem take_ne_stem {bytes : Bytes} {b : UInt8} (h : bytes.length < 8)
    (hp : ¬ bytes.isPrefixOf versionStem) (more : Bytes) :
    (bytes ++ more).take 8 ≠ versionStem ++ [b] := by
  intro ht
  apply hp
  rw [List.isPrefixOf_iff_prefix]
  have hb : bytes <+: versionStem ++ [b] := by
    rw [← ht]
    exact List.prefix_take_iff.mpr ⟨List.prefix_append bytes more, by omega⟩
  refine List.prefix_of_prefix_length_le hb (List.prefix_append versionStem [b]) ?_
  show bytes.length ≤ 7
  omega

theorem decided_version : Decided version where
  exact {bytes a rest} h := by
    rw [run_version] at h
    split at h
    · next h8 =>
      have hrest : rest = bytes.drop 8 := by
        split at h
        · cases h; rfl
        · split at h
          · cases h; rfl
          · cases h
      have hlen : (bytes.take 8).length = 8 := by rw [List.length_take]; omega
      refine ⟨bytes.take 8, by rw [hrest, List.take_append_drop], fun more => ?_⟩
      have htake : (bytes.take 8 ++ more).take 8 = bytes.take 8 := List.take_left' hlen
      have hdrop : (bytes.take 8 ++ more).drop 8 = more := List.drop_left' hlen
      rw [run_version, if_pos (by rw [List.length_append]; omega), htake, hdrop]
      split at h
      · next h1 => cases h; rw [if_pos h1]
      · next h1 =>
        rw [if_neg h1]
        split at h
        · next h0 => cases h; rw [if_pos h0]
        · cases h
    · split at h <;> cases h
  fault {bytes f} h more := by
    rw [run_version] at h ⊢
    split at h
    · next h8 =>
      rw [if_pos (by rw [List.length_append]; omega), List.take_append_of_le_length h8]
      split at h
      · cases h
      · next h1 =>
        rw [if_neg h1]
        split at h
        · cases h
        · next h0 => rw [if_neg h0]; exact h
    · next h8 =>
      split at h
      · cases h
      · next hp =>
        have hlt : bytes.length < 8 := by omega
        rw [if_neg (take_ne_stem hlt hp more), if_neg (take_ne_stem hlt hp more)]
        have hq : ¬ (bytes ++ more).isPrefixOf versionStem := by
          rw [List.isPrefixOf_iff_prefix] at hp ⊢
          exact fun hq => hp ((List.prefix_append bytes more).trans hq)
        rw [if_neg hq, ite_self]
        exact h

theorem decided_lineEnd : Decided lineEnd := by
  refine decided_bind decided_next fun b => decided_ite (decided_expect _ _) ?_
  exact decided_ite (decided_refuse _) (decided_pure ())

theorem decided_valueEnd (bytes : Bytes) (b : UInt8) :
    Decided (if b = 0x0D then do
        expect 0x0A .fieldValue
        return trimEnd bytes
      else if b = 0x0A then return trimEnd bytes
      else (refuse .fieldValue : Scan Bytes)) := by
  refine decided_ite ?_ (decided_ite (decided_pure _) (decided_refuse _))
  exact decided_bind (decided_expect _ _) fun _ => decided_pure _

theorem decided_fieldValue : Decided fieldValue := by
  refine decided_peek (peeking_takeWhile _) (fun _ => ?_) fun _ =>
    needs_takeWhile (needs_bind run_next_nil)
  refine decided_peek (peeking_takeWhile _) (fun bytes => ?_) fun _ => needs_bind run_next_nil
  exact decided_bind decided_next (decided_valueEnd bytes)

theorem decided_field (first : UInt8) : Decided (field first) := by
  refine decided_peek (peeking_takeWhile _) (fun name => ?_) fun _ => needs_bind run_next_nil
  refine decided_bind decided_next fun b => decided_ite (decided_refuse _) ?_
  exact decided_bind decided_fieldValue fun _ => decided_pure _

theorem decided_fieldStart : Decided fieldStart := by
  refine decided_bind decided_next fun b => decided_ite (decided_pure _) ?_
  refine decided_ite (decided_bind (decided_expect _ _) fun _ => decided_pure _) ?_
  exact decided_ite (decided_pure _) (decided_refuse _)

theorem decided_fields : ∀ limit, Decided (fields limit)
  | 0 => by
    refine decided_bind decided_fieldStart fun start => ?_
    cases start with
    | none => exact decided_pure _
    | some b => exact decided_bind (decided_field b) fun _ => decided_refuse _
  | limit + 1 => by
    refine decided_bind decided_fieldStart fun start => ?_
    cases start with
    | none => exact decided_pure _
    | some b =>
      refine decided_bind (decided_field b) fun _ => ?_
      exact decided_bind (decided_fields limit) fun _ => decided_pure _

theorem decided_head : Decided head := by
  refine decided_peek peeking_skipEmptyLines (fun _ => ?_) fun _ =>
    needs_bind (needs_takeWhile (needs_bind run_next_nil))
  refine decided_bind decided_method fun _ => decided_bind decided_target fun _ => ?_
  refine decided_bind decided_version fun _ => decided_bind decided_lineEnd fun _ => ?_
  exact decided_bind (decided_fields maxFields) fun _ => decided_pure _

end Scan

/-! ### Heads and requests -/

theorem Head.read_ok {bytes : Bytes} {h : Head} (hr : Head.read bytes = .ok h) :
    ∃ used rest, bytes = used ++ rest ∧ h.size = used.length ∧
      ∀ more, Head.read (used ++ more) = .ok h := by
  unfold Head.read at hr
  split at hr
  · cases hr
  · next method target version fields rest hs =>
    split at hr
    · next hpos =>
      cases hr
      obtain ⟨used, rfl, hu⟩ := Scan.decided_head.exact hs
      have hlen : ∀ more : Bytes, (used ++ more).length - more.length = used.length := by
        intro more
        rw [List.length_append, Nat.add_sub_cancel]
      refine ⟨used, rest, rfl, hlen rest, fun more => ?_⟩
      rw [hlen] at hpos
      simp only [Head.read, hu more, hlen, hpos, dite_true]
    · cases hr

/-- **A head is read from its own bytes**: it lies within them, and whatever follows it the same
head is read. -/
theorem Head.read_exact {bytes : Bytes} {h : Head} (hr : Head.read bytes = .ok h) :
    h.size ≤ bytes.length ∧ ∀ more, Head.read (bytes.take h.size ++ more) = .ok h := by
  obtain ⟨used, rest, rfl, hsize, hu⟩ := Head.read_ok hr
  refine ⟨by rw [hsize, List.length_append]; omega, fun more => ?_⟩
  rw [hsize, List.take_left]
  exact hu more

/-- **A fault in a head stays**, whatever follows. -/
theorem Head.read_fault {bytes : Bytes} {f : HeadFault} (hr : Head.read bytes = .error (.fault f))
    (more : Bytes) : Head.read (bytes ++ more) = .error (.fault f) := by
  unfold Head.read at hr
  split at hr
  · next s hs =>
    cases hr
    unfold Head.read
    rw [Scan.decided_head.fault hs more]
  · split at hr <;> cases hr

namespace Request

@[simp] theorem contentLength?_withBody (r : Request) (body : Bytes) :
    ({ r with body := body } : Request).contentLength? = r.contentLength? := rfl

theorem read_ok_iff {bytes : Bytes} {r : Request} {h : Head} :
    read bytes = .ok (r, h) ↔
      Head.read bytes = .ok h ∧
        r = { ofHead h with
          body := (bytes.drop h.size).take ((ofHead h).contentLength?.getD 0) } := by
  unfold read
  constructor
  · intro hr
    split at hr
    · cases hr
    · cases hr
    · next h' hh =>
      cases hr
      exact ⟨hh, rfl⟩
  · rintro ⟨hh, rfl⟩
    rw [hh]

theorem read_malformed_iff {bytes : Bytes} {f : HeadFault} :
    read bytes = .error (.malformed f) ↔ Head.read bytes = .error (.fault f) := by
  unfold read
  constructor
  · intro hr
    split at hr
    · cases hr
    · next hh => cases hr; exact hh
    · cases hr
  · intro hh
    rw [hh]

theorem read_incomplete_iff {bytes : Bytes} :
    read bytes = .error .incomplete ↔ Head.read bytes = .error .cut := by
  unfold read
  constructor
  · intro hr
    split at hr
    · next hh => exact hh
    · cases hr
    · cases hr
  · intro hh
    rw [hh]

end Request

end HttpDispatch
