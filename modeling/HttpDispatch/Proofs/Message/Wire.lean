import HttpDispatch.Proofs.Message.Fields
import HttpDispatch.Proofs.Message.Lines
import HttpDispatch.Proofs.Work.Leaves

/-!
# Responses as they are received

Whoever receives a response reads lines up to the first empty one: the status line, then the fields,
each cut at its first colon. What stands behind the empty line is the body. A response whose fields
have proper names and stay on their lines is received as it was sent.

The fate of the connection replaces what was written about it, but the length of the body is added
to whatever lengths were written, so that the length is unambiguous only if none was.

* `Received.read`: the reader, with `headLines` for the lines;
* `Response.Clean`, `Response.Op.IsClean`: proper names and values, kept by every step;
* `Response.Clean.read_encode`: what is received is what was sent;
* `Response.contains_applyAll`: the names that are written before the response is committed;
* `Response.received_applyAll`: the connection, the length and the body that are received.
-/

namespace HttpDispatch

/-! ### The reader -/

/-- The lines up to the first empty one, and what stands behind them. -/
def headLines (bytes : Bytes) : Option (List Bytes × Bytes) :=
  match _ : cutLine bytes with
  | none => none
  | some (line, rest) =>
    if line = [] then some ([], rest) else (headLines rest).map fun q => (line :: q.1, q.2)
termination_by bytes.length
decreasing_by exact length_of_cutLine ‹_›

/-- A response as it is received. -/
structure Received where
  start : Bytes
  fields : List (String × Bytes)
  body : Bytes
  deriving DecidableEq, Repr

namespace Received

/-- The value in the rest of a field's line. -/
def value (bytes : Bytes) : Bytes := Scan.trimEnd (bytes.dropWhile Scan.isGap)

/-- The name and the value in a line, if it has a colon. -/
def field? (line : Bytes) : Option (String × Bytes) :=
  (Multipart.cutAt [0x3A] line).map fun q => (Scan.ascii q.1, value q.2)

/-- Reads a response. -/
def read (bytes : Bytes) : Option Received :=
  match headLines bytes with
  | some (start :: lines, body) => (lines.mapM field?).map fun fields => ⟨start, fields, body⟩
  | _ => none

/-- The values of a name, letter case apart. -/
def getAll (m : Received) (name : String) : List Bytes :=
  (m.fields.filter fun f => Text.sameName f.1 name).map (·.2)

end Received

/-! ### Lines -/

theorem headLines_append {l : Bytes} (h : 0x0D ∉ l) (rest : Bytes) :
    headLines (l ++ lineBreak ++ rest) =
      if l = [] then some ([], rest) else (headLines rest).map fun q => (l :: q.1, q.2) := by
  rw [headLines]
  split
  · next hcut => rw [cutLine_append h] at hcut; cases hcut
  · next hcut => rw [cutLine_append h] at hcut; cases hcut; rfl

/-- **Lines are read as they were written**, up to the empty line. -/
theorem headLines_flatMap {lines : List Bytes} (h : ∀ l ∈ lines, l ≠ [] ∧ 0x0D ∉ l) (rest : Bytes) :
    headLines (lines.flatMap (· ++ lineBreak) ++ lineBreak ++ rest) = some (lines, rest) := by
  induction lines with
  | nil => exact headLines_append List.not_mem_nil rest
  | cons l lines ih =>
    obtain ⟨hne, hcr⟩ := h l List.mem_cons_self
    have hrest := ih fun l hl => h l (List.mem_cons_of_mem _ hl)
    rw [List.flatMap_cons, List.append_assoc, List.append_assoc, headLines_append hcr,
      ← List.append_assoc, hrest, if_neg hne]
    rfl

/-! ### Fields -/

/-- The name of a field is a token, and its value stays on its line. -/
structure CleanField (field : String × String) : Prop where
  name : IsToken field.1
  value : NoBreak field.2

instance (field : String × String) : Decidable (CleanField field) :=
  decidable_of_iff (IsToken field.1 ∧ NoBreak field.2) ⟨fun h => ⟨h.1, h.2⟩, fun h => ⟨h.1, h.2⟩⟩

namespace CleanField

variable {field : String × String}

theorem fieldLine_ne_nil (field : String × String) : fieldLine field ≠ [] := by simp [fieldLine]

theorem not_mem (h : CleanField field) : 0x0D ∉ fieldLine field := by
  have hname := h.name.not_mem_encode (b := 0x0D) (by decide)
  have hvalue := h.value.not_mem
  simp [fieldLine, hname, hvalue]

/-- **A field is read as it was written**, blanks around its value apart. -/
theorem field?_fieldLine (h : CleanField field) :
    Received.field? (fieldLine field) = some (field.1, Received.value (Utf8.encode field.2)) := by
  have hcolon : ¬ [0x3A] <:+: Utf8.encode field.1 := fun hin =>
    h.name.not_mem_encode (by decide) (hin.mem List.mem_cons_self)
  have hcut : Multipart.cutAt [0x3A] (Utf8.encode field.1 ++ [0x3A] ++ 0x20 :: Utf8.encode field.2) =
      some (Utf8.encode field.1, 0x20 :: Utf8.encode field.2) :=
    Multipart.cutAt_append List.not_mem_nil hcolon _
  rw [List.append_assoc] at hcut
  show (Multipart.cutAt [0x3A] (Utf8.encode field.1 ++ ([0x3A] ++ 0x20 :: _))).map _ = _
  rw [hcut]
  show some (Scan.ascii (Utf8.encode field.1), _) = _
  rw [h.name.ascii_encode]
  rfl

end CleanField

@[simp] theorem encode_join (l : List String) :
    Utf8.encode (String.join l) = l.flatMap Utf8.encode := by
  induction l with
  | nil => rfl
  | cons s l ih => simp [ih]

theorem Received.value_of_forall_not {bytes : Bytes} (h : ∀ b ∈ bytes, Scan.isGap b = false) :
    Received.value bytes = bytes := by
  have hdrop : ∀ {l : Bytes}, (∀ b ∈ l, Scan.isGap b = false) → l.dropWhile Scan.isGap = l := by
    intro l hl
    cases l with
    | nil => rfl
    | cons b l => exact List.dropWhile_cons_of_neg (by simp [hl b List.mem_cons_self])
  rw [value, hdrop h, Scan.trimEnd, hdrop fun b hb => h b (List.mem_reverse.mp hb),
    List.reverse_reverse]

theorem isDigit_of_mem_toString {n : Nat} {c : Char} (h : c ∈ (toString n).toList) : c.isDigit := by
  rw [Nat.toString_eq_repr, Nat.repr, String.toList_ofList] at h
  exact Nat.isDigit_of_mem_toDigits (by decide) (by decide) h

theorem noBreak_toString (n : Nat) : NoBreak (toString n) where
  cr h := absurd (isDigit_of_mem_toString h) (by decide)
  lf h := absurd (isDigit_of_mem_toString h) (by decide)

theorem value_toString (n : Nat) :
    Received.value (Utf8.encode (toString n)) = Utf8.encode (toString n) := by
  refine Received.value_of_forall_not fun b hb => ?_
  have hgap : Scan.isGap b = true → b = 0x20 ∨ b = 0x09 := by simp [Scan.isGap]
  refine Bool.eq_false_iff.mpr fun hb' => ?_
  rcases hgap hb' with rfl | rfl
  · exact absurd (isDigit_of_mem_toString (Utf8.mem_encode hb (by decide))) (by decide)
  · exact absurd (isDigit_of_mem_toString (Utf8.mem_encode hb (by decide))) (by decide)

/-! ### Responses -/

namespace Response

variable {r : Response} {op : Op} {ops : List Op} {name : String}

/-- Every field has a proper name and a value that stays on its line. -/
def Clean (r : Response) : Prop := ∀ f ∈ r.fields.toList, CleanField f

/-- What a step writes has a proper name and stays on its line. -/
def Op.IsClean : Op → Prop
  | .addField name value => CleanField (name, value)
  | .setField name value => CleanField (name, value)
  | .send _ contentType _ => ∀ value ∈ contentType, NoBreak value
  | _ => True

instance : DecidablePred Op.IsClean := fun op => by
  cases op <;> unfold Op.IsClean <;> infer_instance

theorem Clean.set {fields : Fields} {n v : String} (h : ∀ f ∈ fields.toList, CleanField f)
    (hf : CleanField (n, v)) : ∀ f ∈ (fields.set n v).toList, CleanField f := by
  intro f hmem
  rcases Fields.mem_set hmem with hmem | rfl
  · exact h f hmem
  · exact hf

theorem Clean.change {f : Response → Response} (h : r.Clean) (hf : (f r).Clean) :
    (r.change f).Clean := by
  unfold Response.change
  split
  · exact h
  · exact hf

theorem isToken_contentType : IsToken "Content-Type" := by decide

theorem Clean.add {fields : Fields} {n v : String} (h : ∀ f ∈ fields.toList, CleanField f)
    (hf : CleanField (n, v)) : ∀ f ∈ (fields.add n v).toList, CleanField f := by
  intro f hmem
  rcases List.mem_append.mp hmem with hmem | hmem
  · exact h f hmem
  · exact List.mem_singleton.mp hmem ▸ hf

/-- **A step keeps the fields clean** if it writes clean ones. -/
theorem Clean.apply (h : r.Clean) (hop : op.IsClean) : (r.apply op).2.Clean := by
  cases op with
  | addField name value => exact h.change (Clean.add h hop)
  | setField name value => exact h.change (Clean.set h hop)
  | send status contentType body =>
    show (r.send status contentType body).2.Clean
    unfold send
    split
    · exact h
    · cases contentType with
      | none => exact h
      | some value => exact Clean.set h ⟨isToken_contentType, hop value rfl⟩
  | setStatus status => exact h.change h
  | write bytes => exact h.change h
  | setBody bytes => exact h.change h
  | commit => exact h
  | setKeepAlive keepAlive => exact h

theorem Clean.applyAll (h : r.Clean) (hops : ∀ op ∈ ops, op.IsClean) : (r.applyAll ops).Clean := by
  induction ops generalizing r with
  | nil => exact h
  | cons op ops ih =>
    exact ih (h.apply (hops op List.mem_cons_self)) fun op hop => hops op (List.mem_cons_of_mem _ hop)

/-! ### The names that are written in time -/

/-- A step writes a field of the name. -/
def Op.writes (name : String) : Op → Bool
  | .addField n _ => Text.sameName n name
  | .setField n _ => Text.sameName n name
  | .send _ (some _) _ => Text.sameName "Content-Type" name
  | _ => false

/-- Some step writes a field of the name, and none before it commits the response. -/
def writesInTime (name : String) : List Op → Bool
  | [] => false
  | op :: ops => op.writes name || (!op.commits && writesInTime name ops)

/-- **A step adds the names that it writes**, and takes none away. -/
theorem contains_apply (h : r.committed = false) :
    (r.apply op).2.fields.contains name = (r.fields.contains name || op.writes name) := by
  have hchange : ∀ f : Response → Response, r.change f = f r := fun f => by simp [change, h]
  cases op with
  | addField n v => simp [apply, addField, hchange, Op.writes]
  | setField n v => simp [apply, setField, hchange, Op.writes]
  | send status contentType body =>
    cases contentType with
    | none => simp [apply, send, h, Op.writes]
    | some value => simp [apply, send, h, Op.writes]
  | _ => simp [apply, setStatus, write, setBody, setKeepAlive, commit, hchange, Op.writes]

theorem committed_apply_eq (h : r.committed = false) : (r.apply op).2.committed = op.commits := by
  have hchange : ∀ f : Response → Response, r.change f = f r := fun f => by simp [change, h]
  cases op <;>
    simp [apply, setStatus, addField, setField, write, setBody, setKeepAlive, commit, send, hchange,
      h, Op.commits]

/-- **The names of a run** are those that were there and those that were written in time. -/
theorem contains_applyAll (h : r.committed = false) :
    (r.applyAll ops).fields.contains name = (r.fields.contains name || writesInTime name ops) := by
  induction ops generalizing r with
  | nil => simp [applyAll, writesInTime]
  | cons op ops ih =>
    have hstep : (r.apply op).2.fields.contains name = _ := contains_apply h
    rw [applyAll_cons, writesInTime, ← Bool.or_assoc, ← hstep]
    cases hop : op.commits with
    | true =>
      -- whatever is written from here on comes too late
      have hfixed := fixed_applyAll ops (committed_apply hop r)
      have hfields : ((r.apply op).2.applyAll ops).fields = (r.apply op).2.fields :=
        congrArg (·.2.1) hfixed.content
      rw [hfields]
      simp
    | false => rw [ih ((committed_apply_eq h).trans hop), Bool.not_false, Bool.true_and]

/-! ### What is received -/

/-- The status line, without its end. -/
def statusLine (r : Response) : Bytes := Utf8.encode ("HTTP/1.1 " ++ r.status.render)

/-- The fields as they are sent, the length of the body last. -/
def wireFields (r : Response) : Fields :=
  r.sentFields.add "Content-Length" (toString r.body.length)

theorem noBreak_status (s : Status) : NoBreak ("HTTP/1.1 " ++ s.render) := by
  cases s <;> decide +kernel

/-- **A response is lines**, an empty one and the body. -/
theorem encode_eq (r : Response) :
    r.encode = (r.statusLine :: r.wireFields.toList.map fieldLine).flatMap (· ++ lineBreak) ++ lineBreak ++
      r.body := by
  have hbreak : Utf8.encode "\r\n" = lineBreak := rfl
  have hfields : Utf8.encode r.sentFields.render =
      (r.sentFields.toList.map fieldLine).flatMap (· ++ lineBreak) := by
    simp [Fields.render, List.flatMap_map]
  simp [encode, head, hfields, hbreak, wireFields, statusLine, Fields.add]

theorem Clean.sentFields (h : r.Clean) : ∀ f ∈ r.sentFields.toList, CleanField f := by
  have hconnection : CleanField ("Connection", r.connection) := by
    unfold connection
    split <;> decide +kernel
  unfold Response.sentFields
  refine Clean.set ?_ hconnection
  split
  · exact h
  · exact Clean.add h (by decide +kernel)

theorem isToken_contentLength : IsToken "Content-Length" := by decide

theorem Clean.wireFields (h : r.Clean) : ∀ f ∈ r.wireFields.toList, CleanField f :=
  Clean.add h.sentFields ⟨isToken_contentLength, noBreak_toString _⟩

/-- **A response is received as it was sent**, if its fields are clean. -/
theorem Clean.read_encode (h : r.Clean) :
    Received.read r.encode = some
      ⟨r.statusLine, r.wireFields.toList.map fun f => (f.1, Received.value (Utf8.encode f.2)), r.body⟩ := by
  have hlines : ∀ l ∈ r.statusLine :: r.wireFields.toList.map fieldLine, l ≠ [] ∧ 0x0D ∉ l := by
    intro l hl
    rcases List.mem_cons.mp hl with rfl | hl
    · refine ⟨?_, (noBreak_status _).not_mem⟩
      rw [statusLine, Utf8.encode_append]
      exact fun hnil => absurd (List.append_eq_nil_iff.mp hnil).1 (by decide)
    · obtain ⟨f, hf, rfl⟩ := List.mem_map.mp hl
      exact ⟨CleanField.fieldLine_ne_nil f, (h.wireFields f hf).not_mem⟩
  rw [Received.read, encode_eq, headLines_flatMap hlines]
  show ((r.wireFields.toList.map fieldLine).mapM Received.field?).map _ = _
  rw [mapM_map_eq_some fun f hf => (h.wireFields f hf).field?_fieldLine]
  rfl

/-- The fields of a name that a response does not add by itself are those that were written. -/
theorem getAll_sentFields (htype : Text.sameName "Content-Type" name = false)
    (hconnection : Text.sameName "Connection" name = false) :
    r.sentFields.getAll name = r.fields.getAll name := by
  unfold sentFields
  split <;> simp [hconnection, htype]

theorem getAll_received (start body : Bytes) (fields : Fields) :
    Received.getAll
        ⟨start, fields.toList.map fun f => (f.1, Received.value (Utf8.encode f.2)), body⟩ name =
      (fields.getAll name).map fun v => Received.value (Utf8.encode v) := by
  simp only [Received.getAll, Fields.getAll, List.filter_map, List.map_map]
  rfl

/-- **The framing that is received.** The fate of the connection is named once, as it was decided
last. The last length is that of the body that follows. It is the only one if no length was written
before the response was committed, and contradicts none then; otherwise there are several. -/
theorem received_applyAll (h : ∀ op ∈ ops, op.IsClean) (hr : ({} : Response).applyAll ops = r) :
    ∃ m, Received.read r.encode = some m ∧ m.body = r.body ∧
      m.getAll "Connection" = [Utf8.encode r.connection] ∧
      (m.getAll "Content-Length").getLast? = some (Utf8.encode (toString m.body.length)) ∧
      ((m.getAll "Content-Length").length = 1 ↔ writesInTime "Content-Length" ops = false) := by
  subst hr
  have hclean : (({} : Response).applyAll ops).Clean :=
    Clean.applyAll (r := {}) (fun f hf => by cases hf) h
  have hwritten : (({} : Response).applyAll ops).fields.contains "Content-Length" = _ :=
    contains_applyAll rfl
  generalize ({} : Response).applyAll ops = r at hclean hwritten ⊢
  have hlength : r.wireFields.getAll "Content-Length" =
      r.fields.getAll "Content-Length" ++ [toString r.body.length] := by
    rw [wireFields, Fields.getAll_add, getAll_sentFields (by decide) (by decide)]
    rfl
  have hconnection : r.wireFields.getAll "Connection" = [r.connection] := by
    rw [wireFields, Fields.getAll_add_of_ne (by decide), getAll_connection]
  refine ⟨_, hclean.read_encode, rfl, ?_, ?_, ?_⟩
  · rw [getAll_received, hconnection]
    unfold connection
    split <;> decide +kernel
  · rw [getAll_received, hlength, List.map_append, List.getLast?_append]
    exact congrArg some (value_toString _)
  · have hone : (r.fields.getAll "Content-Length" ++ [toString r.body.length]).length = 1 ↔
        r.fields.contains "Content-Length" = false := by
      rw [← Fields.getAll_eq_nil_iff, List.length_append, ← List.length_eq_zero_iff]
      simp
    rw [getAll_received, hlength, List.length_map, hone, hwritten]
    rfl

/-- A created thing with a name, and a length that is written when the response is committed. -/
def lateLength : List Op :=
  [.setStatus .created, .addField "X-Name" "a: b", .write [0x68, 0x69], .commit,
    .setField "Content-Length" "9", .setKeepAlive false]

/-- A length that comes too late is not sent. -/
theorem late_length_is_dropped :
    (∀ op ∈ lateLength, op.IsClean) ∧ writesInTime "Content-Length" lateLength = false ∧
      ∃ m, Received.read (({} : Response).applyAll lateLength).encode = some m ∧
        m.body = [0x68, 0x69] ∧ (m.getAll "Content-Length").length = 1 := by
  have hclean : ∀ op ∈ lateLength, op.IsClean := by decide +kernel
  have hlate : writesInTime "Content-Length" lateLength = false := by decide
  obtain ⟨m, hread, hbody, -, -, hone⟩ := received_applyAll hclean rfl
  exact ⟨hclean, hlate, m, hread, hbody.trans (by decide), hone.mpr hlate⟩

/-- A handler that writes a length of its own, another one than that of the body. -/
def ownLength : List Op := [.setField "content-length" "5", .write [0x6F, 0x6B]]

/-- A length that a handler writes is sent before the length of the body. -/
theorem own_length_is_kept :
    (∀ op ∈ ownLength, op.IsClean) ∧
      (Received.read (({} : Response).applyAll ownLength).encode).map
        (fun m => (m.getAll "Content-Length", m.body.length)) = some ([[0x35], [0x32]], 2) := by
  decide +kernel

end Response

end HttpDispatch
