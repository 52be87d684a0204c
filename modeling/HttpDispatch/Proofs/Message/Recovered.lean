import HttpDispatch.Proofs.Message.Marks
import HttpDispatch.Proofs.Message.Wire

/-!
# Responses that are read back

A reader that knows nothing of responses but their form cuts the bytes at the first empty line, the
head into lines, and every line but the first at the first colon with a space behind it. From a
response whose names and values stay on their lines, and whose names have no colons, this recovers
the body as it is, whatever is in it, the status, and the fields in their order.

The names need not be tokens here, and values keep their blanks, both unlike in `Received.read`.

* `linesOf`, `Recovered.read`: the reader;
* `LineField`: a field that can be told from its line;
* `Multipart.isCut_emptyLine`: the first empty line is the one behind the head;
* `Response.announced`: the fields that a response is sent with;
* `Response.encode_is_recovered`: what is recovered.
-/

namespace HttpDispatch

/-! ### The reader -/

/-- The bytes between line breaks. -/
def linesOf (bytes : Bytes) : List Bytes :=
  match _ : cutLine bytes with
  | none => [bytes]
  | some (line, rest) => line :: linesOf rest
termination_by bytes.length
decreasing_by exact length_of_cutLine ‹_›

/-- A response as it is read back. -/
structure Recovered where
  start : String
  fields : List (String × String)
  body : Bytes
  deriving DecidableEq, Repr

namespace Recovered

/-- The name and the value in a line, cut at the first colon with a space behind it. -/
def field? (line : Bytes) : Option (String × String) := do
  let (name, value) ← Multipart.cutAt [0x3A, 0x20] line
  return (← Utf8.decode? name, ← Utf8.decode? value)

/-- The lines of a head: the first one, and the fields in the others. -/
def ofLines (body : Bytes) : List Bytes → Option Recovered
  | [] => none
  | start :: lines => do return ⟨← Utf8.decode? start, ← lines.mapM field?, body⟩

/-- Reads a response: the head up to the first empty line, and the body behind it. -/
def read (bytes : Bytes) : Option Recovered := do
  let (head, body) ← Multipart.cutAt (lineBreak ++ lineBreak) bytes
  ofLines body (linesOf head)

end Recovered

/-! ### Lines -/

theorem linesOf_of_not_mem {l : Bytes} (h : 0x0D ∉ l) : linesOf l = [l] := by
  rw [linesOf]
  split
  · rfl
  · next hcut => rw [cutLine_eq_none h] at hcut; cases hcut

theorem linesOf_append {l : Bytes} (h : 0x0D ∉ l) (rest : Bytes) :
    linesOf (l ++ lineBreak ++ rest) = l :: linesOf rest := by
  rw [linesOf]
  split
  · next hcut => rw [cutLine_append h] at hcut; cases hcut
  · next hcut => rw [cutLine_append h] at hcut; cases hcut; rfl

/-- Lines put together, with line breaks between them. -/
def joinLines (l : Bytes) (lines : List Bytes) : Bytes := l ++ lines.flatMap (lineBreak ++ ·)

@[simp] theorem joinLines_cons (l m : Bytes) (lines : List Bytes) :
    joinLines l (m :: lines) = l ++ lineBreak ++ joinLines m lines := by
  simp [joinLines]

theorem flatMap_lines (l : Bytes) (lines : List Bytes) :
    (l :: lines).flatMap (· ++ lineBreak) = joinLines l lines ++ lineBreak := by
  induction lines generalizing l with
  | nil => simp [joinLines]
  | cons m lines ih =>
    rw [List.flatMap_cons, ih, joinLines_cons]
    simp only [List.append_assoc]

/-- **Lines that are put together** are told apart again. -/
theorem linesOf_joinLines {l : Bytes} {lines : List Bytes} (h : ∀ m ∈ l :: lines, 0x0D ∉ m) :
    linesOf (joinLines l lines) = l :: lines := by
  induction lines generalizing l with
  | nil => simpa [joinLines] using linesOf_of_not_mem (h l List.mem_cons_self)
  | cons m lines ih =>
    rw [joinLines_cons, linesOf_append (h l List.mem_cons_self),
      ih fun k hk => h k (List.mem_cons_of_mem _ hk)]

/-! ### The first empty line -/

namespace Multipart

variable {l before after : Bytes}

/-- No empty line begins within a line. -/
theorem isCut_append (h : 0x0D ∉ l) (hcut : IsCut (lineBreak ++ lineBreak) before after) :
    IsCut (lineBreak ++ lineBreak) (l ++ before) after := by
  induction l with
  | nil => exact hcut
  | cons a l ih =>
    rw [List.mem_cons, not_or] at h
    refine isCut_cons_iff.mpr ⟨fun hprefix => ?_, ih h.2⟩
    have hfirst : (0x0D : UInt8) = a := by
      obtain ⟨t, ht⟩ := hprefix
      exact (List.cons.inj ht).1
    exact h.1 hfirst

/-- No empty line begins with the end of a line, if the next one is not empty. -/
theorem isCut_lineBreak {y : UInt8} (hy : y ≠ 0x0D)
    (hcut : IsCut (lineBreak ++ lineBreak) (y :: before) after) :
    IsCut (lineBreak ++ lineBreak) (lineBreak ++ y :: before) after := by
  have hthird : ∀ t bytes : Bytes, lineBreak ++ lineBreak ++ t ≠ lineBreak ++ y :: bytes := by
    intro t bytes heq
    have hrest : lineBreak ++ t = y :: bytes :=
      List.append_cancel_left ((List.append_assoc _ _ _).symm.trans heq)
    exact hy (List.cons.inj hrest).1.symm
  refine isCut_cons_iff.mpr ⟨fun ⟨t, ht⟩ => ?_, isCut_cons_iff.mpr ⟨fun ⟨t, ht⟩ => ?_, hcut⟩⟩
  · refine hthird t (before ++ (lineBreak ++ lineBreak) ++ after) ?_
    rw [ht]
    simp [lineBreak]
  · exact absurd (List.cons.inj ht).1 (by decide)

/-- **The first empty line** is the one behind lines that are not empty, whatever follows. -/
theorem isCut_emptyLine {lines : List Bytes} (h : ∀ m ∈ l :: lines, 0x0D ∉ m)
    (hne : ∀ m ∈ lines, m ≠ []) (after : Bytes) :
    IsCut (lineBreak ++ lineBreak) (joinLines l lines) after := by
  induction lines generalizing l with
  | nil => exact isCut_append (h l List.mem_cons_self) (isCut_nil _ _)
  | cons m lines ih =>
    have hcut := ih (fun k hk => h k (List.mem_cons_of_mem _ hk))
      fun k hk => hne k (List.mem_cons_of_mem _ hk)
    obtain ⟨y, m', rfl⟩ := List.exists_cons_of_ne_nil (hne m List.mem_cons_self)
    have hy : y ≠ 0x0D := fun heq =>
      h (y :: m') (List.mem_cons_of_mem _ List.mem_cons_self) (heq ▸ List.mem_cons_self)
    rw [joinLines_cons, List.append_assoc]
    exact isCut_append (h l List.mem_cons_self) (isCut_lineBreak hy hcut)

end Multipart

/-! ### Fields -/

/-- Name and value of a field stay on the line, and the name ends before the first colon. -/
structure LineField (field : String × String) : Prop where
  name : NoBreak field.1
  colon : ':' ∉ field.1.toList
  value : NoBreak field.2

instance (field : String × String) : Decidable (LineField field) :=
  decidable_of_iff (NoBreak field.1 ∧ ':' ∉ field.1.toList ∧ NoBreak field.2)
    ⟨fun h => ⟨h.1, h.2.1, h.2.2⟩, fun h => ⟨h.name, h.colon, h.value⟩⟩

namespace LineField

variable {field : String × String}

theorem not_mem (h : LineField field) : 0x0D ∉ fieldLine field := by
  have hname := h.name.not_mem
  have hvalue := h.value.not_mem
  simp [fieldLine, hname, hvalue]

/-- **A field is read as it was written.** -/
theorem field?_fieldLine (h : LineField field) :
    Recovered.field? (fieldLine field) = some field := by
  have hcolon : ¬ [0x3A, 0x20] <:+: Utf8.encode field.1 := fun hin =>
    h.colon (Utf8.mem_encode (hin.mem List.mem_cons_self) (by decide))
  have hcut : Multipart.cutAt [0x3A, 0x20] (fieldLine field) =
      some (Utf8.encode field.1, Utf8.encode field.2) := by
    have hmark := Multipart.cutAt_append (by decide) hcolon (Utf8.encode field.2)
    rw [List.append_assoc] at hmark
    exact hmark
  rw [Recovered.field?, hcut]
  simp [Utf8.decode?_encode]

end LineField

/-! ### Responses -/

namespace Response

variable {r : Response}

/-- The content type that a response is sent with on its own account: one for text, if there is a
body and nothing says what it is. -/
def impliedType (r : Response) : List (String × String) :=
  if r.body ≠ [] ∧ ∀ f ∈ r.fields.toList, Text.sameName f.1 "Content-Type" = false then
    [("Content-Type", "text/plain; charset=utf-8")]
  else []

/-- **The fields that a response is sent with**: those that were written, in order and without any
about the connection, the implied content type, the fate of the connection, and the length of the
body. -/
def announced (r : Response) : List (String × String) :=
  (r.fields.toList.filter fun f => !Text.sameName f.1 "Connection") ++ r.impliedType ++
    [("Connection", if r.keepAlive then "keep-alive" else "close"),
      ("Content-Length", toString r.body.length)]

theorem hasContentType_eq_false_iff : r.hasContentType = false ↔
    ∀ f ∈ r.fields.toList, Text.sameName f.1 "Content-Type" = false := by
  have hlower : Text.lower "content-type" = Text.lower "Content-Type" := by decide
  simp only [hasContentType, Fields.contains, Fields.named, Text.sameName, hlower,
    List.any_eq_false, Bool.not_eq_true]

theorem toList_typed (r : Response) :
    (if r.body.isEmpty || r.hasContentType then r.fields
      else r.fields.add "Content-Type" "text/plain; charset=utf-8").toList =
      r.fields.toList ++ r.impliedType := by
  rw [impliedType]
  by_cases hbody : r.body = []
  · simp [hbody]
  · by_cases htype : r.hasContentType = false
    · have hnone := hasContentType_eq_false_iff.mp htype
      rw [if_neg (by simp [hbody, htype]), if_pos ⟨hbody, hnone⟩]
      rfl
    · have hsome := mt hasContentType_eq_false_iff.mpr htype
      rw [if_pos (by simp [htype]), if_neg (fun h => hsome h.2), List.append_nil]

@[simp] theorem filter_impliedType (r : Response) :
    (r.impliedType.filter fun f => !Text.sameName f.1 "Connection") = r.impliedType := by
  have hother : Text.sameName "Content-Type" "Connection" = false := by decide
  rw [impliedType]
  split
  · simp [hother]
  · rfl

theorem wireFields_eq (r : Response) : r.wireFields.toList = r.announced := by
  have hsent : r.sentFields.toList =
      ((r.fields.toList ++ r.impliedType).filter fun f => !Text.sameName f.1 "Connection") ++
        [("Connection", r.connection)] := by
    rw [← toList_typed]
    rfl
  show r.sentFields.toList ++ [_] = _
  rw [hsent, List.filter_append, filter_impliedType, List.append_assoc]
  rfl

/-- Every field that a response is sent with can be told from its line, if those that were written
can. -/
theorem lineField_announced (h : ∀ f ∈ r.fields.toList, LineField f) :
    ∀ f ∈ r.announced, LineField f := by
  intro f hf
  simp only [announced, List.mem_append, List.mem_cons, List.not_mem_nil, or_false] at hf
  rcases hf with (hf | hf) | rfl | rfl
  · exact h f (List.mem_filter.mp hf).1
  · unfold impliedType at hf
    split at hf
    · cases List.mem_singleton.mp hf
      decide +kernel
    · cases hf
  · cases r.keepAlive <;> decide +kernel
  · have hname : NoBreak "Content-Length" ∧ ':' ∉ "Content-Length".toList := by decide
    exact ⟨hname.1, hname.2, noBreak_toString _⟩

theorem not_mem_headLine (h : ∀ f ∈ r.fields.toList, LineField f) :
    ∀ l ∈ r.statusLine :: r.announced.map fieldLine, 0x0D ∉ l := by
  intro l hl
  rcases List.mem_cons.mp hl with rfl | hl
  · exact (noBreak_status _).not_mem
  · obtain ⟨f, hf, rfl⟩ := List.mem_map.mp hl
    exact (lineField_announced h f hf).not_mem

/-- **The first empty line of a response** is the one between its head and its body. -/
theorem cutAt_encode (h : ∀ f ∈ r.fields.toList, LineField f) :
    Multipart.cutAt (lineBreak ++ lineBreak) r.encode =
      some (joinLines r.statusLine (r.announced.map fieldLine), r.body) := by
  have hne : ∀ l ∈ r.announced.map fieldLine, l ≠ [] := by
    intro l hl
    obtain ⟨f, -, rfl⟩ := List.mem_map.mp hl
    exact CleanField.fieldLine_ne_nil f
  have hcut := Multipart.cutAt_append_of_isCut
    (Multipart.isCut_emptyLine (not_mem_headLine h) hne r.body)
  rw [encode_eq, wireFields_eq, flatMap_lines]
  simpa only [List.append_assoc] using hcut

/-- **A response is recovered from its bytes.** Whatever its status and its body, an empty line in
the body among the rest, a response whose written fields can each be told from their lines is read
back: the first line has the number and the reason of the status, the other lines are the fields
that the response is sent with, in order, and what stands behind the first empty line is the body,
byte for byte. -/
theorem encode_is_recovered (h : ∀ f ∈ r.fields.toList, LineField f) :
    Recovered.read r.encode = some
      { start := s!"HTTP/1.1 {r.status.code} {r.status.reason}"
        fields := r.announced
        body := r.body } := by
  have hstart : Utf8.decode? r.statusLine =
      some s!"HTTP/1.1 {r.status.code} {r.status.reason}" := by
    rw [statusLine, Utf8.decode?_encode, Status.render]
    rfl
  have hfields : (r.announced.map fieldLine).mapM Recovered.field? = some r.announced := by
    rw [mapM_map_eq_some fun f hf => (lineField_announced h f hf).field?_fieldLine, List.map_id']
  have hlines : Recovered.ofLines r.body (r.statusLine :: r.announced.map fieldLine) =
      some ⟨s!"HTTP/1.1 {r.status.code} {r.status.reason}", r.announced, r.body⟩ := by
    rw [Recovered.ofLines, hstart, hfields]
    rfl
  rw [Recovered.read, cutAt_encode h, Option.bind_eq_bind, Option.bind_some]
  dsimp only
  rw [linesOf_joinLines (not_mem_headLine h), hlines]

/-- A response with an empty line in its body and with fields that are sent otherwise: one about the
connection, a length, and one whose name is no token. -/
def wayward : Response where
  status := .notFound
  fields := ⟨[("x näme", " a: b "), ("CONNECTION", "upgrade"), ("content-length", "9")]⟩
  body := [0x0D, 0x0A, 0x0D, 0x0A, 0xFF]
  keepAlive := false

theorem wayward_is_recovered :
    Recovered.read wayward.encode = some
      { start := "HTTP/1.1 404 Not Found"
        fields :=
          [("x näme", " a: b "), ("content-length", "9"),
            ("Content-Type", "text/plain; charset=utf-8"), ("Connection", "close"),
            ("Content-Length", "5")]
        body := [0x0D, 0x0A, 0x0D, 0x0A, 0xFF] } := by
  have hfields : ∀ f ∈ wayward.fields.toList, LineField f := by decide +kernel
  rw [encode_is_recovered hfields]
  decide +kernel

end Response

end HttpDispatch
