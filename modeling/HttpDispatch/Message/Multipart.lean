import HttpDispatch.Message.Form
import HttpDispatch.Message.Head

/-!
# Multipart bodies

A body of parts between delimiters, `--` and the boundary. What stands before the first delimiter
is ignored. After a delimiter either `--` ends the body, or a line break may follow and a part
begins, which goes up to the next CRLF and delimiter. A part is a head and a content: it is a file
if its disposition has a filename, and a text field otherwise.

The first thing that goes wrong from left to right is the fault.
-/

namespace HttpDispatch

/-- Why a form cannot be read. -/
inductive FormFault where
  | missingBoundary
  | missingDelimiter
  | truncated
  | head (why : Scan.Stop)
  | missingName
  | invalidText (name : String)
  deriving DecidableEq, Repr

/-- The wording of a fault. -/
def FormFault.message : FormFault → String
  | .missingBoundary => "multipart content type is missing the boundary parameter"
  | .missingDelimiter => "multipart body does not start with the declared boundary"
  | .truncated => "multipart body is truncated: closing boundary not found"
  | .head .cut => "malformed multipart part headers: incomplete part headers"
  | .head (.fault f) => "malformed multipart part headers: " ++ f.message
  | .missingName => "multipart part without a Content-Disposition name"
  | .invalidText name => "multipart field " ++ Text.quoted name ++ " is not valid UTF-8"

namespace Multipart

/-- What stands before and after the first occurrence of `mark`, if there is one. -/
def cutAt (mark : Bytes) : Bytes → Option (Bytes × Bytes)
  | [] => if mark.isEmpty then some ([], []) else none
  | b :: r =>
    if mark.isPrefixOf (b :: r) then some ([], (b :: r).drop mark.length)
    else (cutAt mark r).map fun q => (b :: q.1, q.2)

@[grind →] theorem length_cutAt {mark bytes before after : Bytes}
    (h : cutAt mark bytes = some (before, after)) :
    before.length + mark.length + after.length = bytes.length := by
  induction bytes generalizing before with
  | nil =>
    simp only [cutAt] at h
    split at h <;> simp_all
  | cons b r ih =>
    simp only [cutAt] at h
    split at h
    · rename_i hp
      have := (List.isPrefixOf_iff_prefix.1 hp).length_le
      simp only [Option.some.injEq, Prod.mk.injEq] at h
      obtain ⟨rfl, rfl⟩ := h
      simp only [List.length_nil, List.length_drop, List.length_cons] at this ⊢
      omega
    · obtain ⟨q, hq, hb⟩ := Option.map_eq_some_iff.1 h
      simp only [Prod.mk.injEq] at hb
      obtain ⟨rfl, rfl⟩ := hb
      have := ih hq
      simp only [List.length_cons]
      omega

/-- The bytes without a line break at the front. -/
def afterLineBreak : Bytes → Bytes
  | 0x0D :: 0x0A :: r => r
  | 0x0A :: r => r
  | r => r

@[grind .] theorem length_afterLineBreak (bytes : Bytes) :
    (afterLineBreak bytes).length ≤ bytes.length := by
  unfold afterLineBreak
  split
  · simp only [List.length_cons]
    omega
  · simp only [List.length_cons]
    omega
  · exact Nat.le_refl _

/-- The parameters of a disposition, names in lower case. -/
def dispositionParams (value : String) : List (String × String) :=
  ((Text.split ';' value).drop 1).filterMap fun p =>
    (Text.splitOnce '=' p).map fun q =>
      (Text.lower (Text.trim q.1), Text.unquote (Text.trim q.2))

/-- What the head of a part says about it. -/
structure Description where
  name : Option String := none
  filename : Option String := none
  contentType : Option MediaType := none
  deriving DecidableEq, Repr

/-- Takes in one parameter of a disposition. -/
def Description.param (d : Description) (p : String × String) : Description :=
  if p.1 = "name" then { d with name := some p.2 }
  else if p.1 = "filename" then { d with filename := some p.2 }
  else d

/-- Takes in one header field. -/
def Description.field (d : Description) (f : String × Bytes) : Description :=
  let value := Utf8.decodeLossy f.2
  if Text.sameName f.1 "content-disposition" then
    (dispositionParams value).foldl Description.param d
  else if Text.sameName f.1 "content-type" then
    { d with contentType := MediaType.ofText? value }
  else d

/-- How many header fields a part may have. -/
def maxFields : Nat := 16

/-- The form with one more part. -/
def addPart (form : Form) (part : Bytes) : Except FormFault Form :=
  match (Scan.fields maxFields).run part with
  | .error s => .error (.head s)
  | .ok (fields, content) =>
    let d := fields.foldl Description.field {}
    match d.name with
    | none => .error .missingName
    | some name =>
      match d.filename with
      | some filename => .ok { form with files := form.files ++ [⟨name, filename, d.contentType, content⟩] }
      | none =>
        match Utf8.decode? content with
        | some text => .ok { form with fields := form.fields ++ [(name, text)] }
        | none => .error (.invalidText name)

/-- The mark that ends a body or begins a delimiter. -/
def dashes : Bytes := [0x2D, 0x2D]

/-- The delimiter of a boundary. -/
def delimiter (boundary : String) : Bytes := dashes ++ Utf8.encode boundary

/-- The mark that ends a part. -/
def closing (boundary : String) : Bytes := [0x0D, 0x0A] ++ delimiter boundary

/-- Adds the parts that follow a delimiter. -/
def addParts (boundary : String) (form : Form) (bytes : Bytes) : Except FormFault Form :=
  if dashes.isPrefixOf bytes then .ok form
  else
    match _ : cutAt (closing boundary) (afterLineBreak bytes) with
    | none => .error .truncated
    | some (part, rest) =>
      match addPart form part with
      | .error e => .error e
      | .ok form => if rest.isEmpty then .error .truncated else addParts boundary form rest
  termination_by bytes.length
  decreasing_by
    have := length_cutAt ‹cutAt (closing boundary) (afterLineBreak bytes) = some (part, rest)›
    have := length_afterLineBreak bytes
    simp only [closing, List.length_append, List.length_cons, List.length_nil] at *
    omega

/-- The form that a body holds. -/
def read (boundary : String) (body : Bytes) : Except FormFault Form :=
  match cutAt (delimiter boundary) body with
  | none => .error .missingDelimiter
  | some (_, rest) => addParts boundary .empty rest

end Multipart

end HttpDispatch
