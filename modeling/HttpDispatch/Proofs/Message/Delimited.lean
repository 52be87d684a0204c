import Mathlib.Data.List.Forall2
import HttpDispatch.Proofs.Message.Submission

/-!
# Bodies between delimiters

Which bodies can be read, and what is wrong with the others. A body can be read if it is a preamble
without the delimiter, the delimiter, stretches that each end with the next delimiter, and the
dashes that end it; what is read are the parts in the stretches. Of what is wrong the leftmost
counts.

* `readPart`, `addPart_eq`: a part by itself;
* `Stretch`, `Stretch.Stands`, `Stand`: what stands between two delimiters;
* `addParts_stands`, `addParts_stand`: reading one stretch, and reading all of them;
* `exists_stand`: every body with a delimiter is stretches up to a place where reading stops;
* `Decides`, `read_eq_iff`: what becomes of a body.
-/

namespace HttpDispatch

/-- The text fields among parts. -/
def Part.text? : Part → Option (String × String)
  | .text name value => some (name, value)
  | .file _ => none

/-- The files among parts. -/
def Part.upload? : Part → Option File
  | .text _ _ => none
  | .file f => some f

/-- The form of parts in order. -/
def Form.ofParts (parts : List Part) : Form :=
  ⟨parts.filterMap Part.text?, parts.filterMap Part.upload?⟩

namespace Multipart

/-! ### One part -/

/-- The part in the bytes of one, if they are acceptable: the head can be read and names the part,
and a part that is no file is text. -/
def readPart (bytes : Bytes) : Except FormFault Part :=
  match (Scan.fields maxFields).run bytes with
  | .error s => .error (.head s)
  | .ok (fields, content) =>
    let d := fields.foldl Description.field {}
    match d.name with
    | none => .error .missingName
    | some name =>
      match d.filename with
      | some filename => .ok (.file ⟨name, filename, d.contentType, content⟩)
      | none =>
        match Utf8.decode? content with
        | some text => .ok (.text name text)
        | none => .error (.invalidText name)

/-- **A part is read by itself**, whatever parts were read before. -/
theorem addPart_eq (form : Form) (bytes : Bytes) :
    addPart form bytes = (readPart bytes).map (push form) := by
  unfold addPart readPart
  rcases (Scan.fields maxFields).run bytes with s | ⟨fields, content⟩
  · rfl
  · simp only
    cases (fields.foldl Description.field {}).name with
    | none => rfl
    | some name =>
      cases (fields.foldl Description.field {}).filename with
      | some filename => rfl
      | none => cases Utf8.decode? content <;> rfl

theorem readPart_ne (bytes : Bytes) :
    readPart bytes ≠ .error .missingDelimiter ∧ readPart bytes ≠ .error .truncated := by
  unfold readPart
  rcases (Scan.fields maxFields).run bytes with s | ⟨fields, content⟩
  · simp
  · simp only
    cases (fields.foldl Description.field {}).name with
    | none => simp
    | some name =>
      cases (fields.foldl Description.field {}).filename with
      | some filename => simp
      | none => cases Utf8.decode? content <;> simp

theorem foldl_push (form : Form) (parts : List Part) :
    parts.foldl push form = ⟨form.fields ++ (Form.ofParts parts).fields,
      form.files ++ (Form.ofParts parts).files⟩ := by
  induction parts generalizing form with
  | nil => simp [Form.ofParts]
  | cons p parts ih =>
    rw [List.foldl_cons, ih]
    cases p <;> simp [push, Form.ofParts, List.filterMap_cons, Part.text?, Part.upload?]

/-- **No part is lost**, and none is there twice. -/
@[simp] theorem size_ofParts (parts : List Part) : (Form.ofParts parts).size = parts.length := by
  have hsize := size_foldl_push .empty parts
  rw [foldl_push] at hsize
  simpa [Form.size, Form.empty] using hsize

/-! ### Stretches -/

/-- A line break, the longest that stands before `after`, or nothing. -/
def IsLead (lead after : Bytes) : Prop :=
  lead = [0x0D, 0x0A] ∨ lead = [0x0A] ∨
    lead = [] ∧ ¬ [0x0D, 0x0A] <+: after ∧ ¬ [0x0A] <+: after

@[simp] theorem afterLineBreak_lead {lead after : Bytes} (h : IsLead lead after) :
    afterLineBreak (lead ++ after) = after := by
  rcases h with rfl | rfl | ⟨rfl, hcrlf, hlf⟩
  · rfl
  · rfl
  · rw [List.nil_append]
    unfold afterLineBreak
    split
    · simp at hcrlf
    · simp at hlf
    · rfl

theorem exists_lead (bytes : Bytes) :
    ∃ lead, bytes = lead ++ afterLineBreak bytes ∧ IsLead lead (afterLineBreak bytes) := by
  unfold afterLineBreak
  split
  · exact ⟨[0x0D, 0x0A], rfl, .inl rfl⟩
  · exact ⟨[0x0A], rfl, .inr (.inl rfl)⟩
  · next hcrlf hlf =>
    refine ⟨[], rfl, .inr (.inr ⟨rfl, ?_, ?_⟩)⟩
    · rintro ⟨r, hr⟩
      exact hcrlf r hr.symm
    · rintro ⟨r, hr⟩
      exact hlf r hr.symm

/-- What stands between two delimiters: a line break, if there is one, and the bytes of a part. -/
structure Stretch where
  lead : Bytes
  part : Bytes

/-- A stretch with the delimiter behind it. -/
def Stretch.bytes (boundary : String) (s : Stretch) : Bytes := s.lead ++ s.part ++ closing boundary

/-- **A stretch stands behind a delimiter**, with `rest` behind it: the body does not end here, the
line break is the longest, and the part goes up to the first place where it may end. -/
structure Stretch.Stands (boundary : String) (s : Stretch) (rest : Bytes) : Prop where
  goesOn : ¬ dashes <+: s.bytes boundary ++ rest
  lead : IsLead s.lead (s.part ++ closing boundary ++ rest)
  part : IsCut (closing boundary) s.part rest

/-- Stretches stand one behind the other, with `rest` behind them. -/
def Stand (boundary : String) : List Stretch → Bytes → Prop
  | [], _ => True
  | s :: stretches, rest =>
    s.Stands boundary (stretches.flatMap (·.bytes boundary) ++ rest) ∧ Stand boundary stretches rest

variable {boundary : String} {stretches : List Stretch} {parts : List Part} {body rest : Bytes}

theorem stand_append {more : List Stretch} : Stand boundary (stretches ++ more) rest ↔
    Stand boundary stretches (more.flatMap (·.bytes boundary) ++ rest) ∧ Stand boundary more rest := by
  induction stretches with
  | nil => simp [Stand]
  | cons s stretches ih => simp [Stand, ih, and_assoc]

@[simp] theorem addParts_nil (form : Form) : addParts boundary form [] = .error .truncated := by
  rw [addParts]
  rfl

/-- **Reading a stretch**: its part is read, and then what stands behind it. -/
theorem addParts_stands {s : Stretch} (h : s.Stands boundary rest) (form : Form) :
    addParts boundary form (s.bytes boundary ++ rest) =
      match readPart s.part with
      | .error fault => .error fault
      | .ok p => addParts boundary (push form p) rest := by
  have hgoes : ¬ dashes.isPrefixOf (s.bytes boundary ++ rest) := by
    rw [List.isPrefixOf_iff_prefix]
    exact h.goesOn
  have hcut : cutAt (closing boundary) (afterLineBreak (s.bytes boundary ++ rest)) =
      some (s.part, rest) := by
    have hbytes : s.bytes boundary ++ rest = s.lead ++ (s.part ++ closing boundary ++ rest) := by
      simp [Stretch.bytes]
    rw [hbytes, afterLineBreak_lead h.lead, cutAt_append_of_isCut h.part]
  rw [addParts, if_neg hgoes]
  split
  · next hnone =>
    rw [hcut] at hnone
    cases hnone
  · next part rest' hsome =>
    rw [hcut] at hsome
    cases hsome
    rw [addPart_eq]
    cases readPart s.part with
    | error fault => rfl
    | ok p =>
      show (if rest.isEmpty then _ else _) = addParts boundary (push form p) rest
      split
      · next hempty =>
        rw [List.isEmpty_iff.mp hempty, addParts_nil]
      · rfl

/-- The parts in stretches, all acceptable. -/
def Accepted (stretches : List Stretch) (parts : List Part) : Prop :=
  List.Forall₂ (fun s p => readPart s.part = .ok p) stretches parts

/-- **Reading stretches**: their parts are read, and then what stands behind them. -/
theorem addParts_stand (h : Stand boundary stretches rest) (hparts : Accepted stretches parts)
    (form : Form) :
    addParts boundary form (stretches.flatMap (·.bytes boundary) ++ rest) =
      addParts boundary (parts.foldl push form) rest := by
  induction hparts generalizing form with
  | nil => rfl
  | cons hp _ ih =>
    obtain ⟨hs, hstand⟩ := h
    rw [List.flatMap_cons, List.append_assoc, addParts_stands hs, hp]
    exact ih hstand _

/-! ### Where reading stops -/

/-- No part ends in what stands behind a delimiter, and neither does the body. -/
def Unfinished (boundary : String) (rest : Bytes) : Prop :=
  ¬ dashes <+: rest ∧ ∃ lead after, rest = lead ++ after ∧ IsLead lead after ∧
    ¬ closing boundary <:+: after

theorem unfinished_nil (boundary : String) : Unfinished boundary [] :=
  ⟨by simp [dashes], [], [], rfl, .inr (.inr ⟨rfl, by simp, by simp⟩), by simp [closing]⟩

theorem addParts_unfinished (h : Unfinished boundary rest) (form : Form) :
    addParts boundary form rest = .error .truncated := by
  obtain ⟨hgoes, lead, after, rfl, hlead, hnone⟩ := h
  rw [addParts, if_neg (by rwa [List.isPrefixOf_iff_prefix])]
  rcases cutAt_cases (closing boundary) after with ⟨hcut, -⟩ | ⟨part, rest, rfl, -⟩
  · split
    · rfl
    · next hsome =>
      rw [afterLineBreak_lead hlead, hcut] at hsome
      cases hsome
  · exact absurd ⟨part, rest, rfl⟩ hnone

/-- **Behind a delimiter** the body ends, or a stretch stands there, or neither. -/
theorem stretch_cases (boundary : String) (bytes : Bytes) :
    dashes <+: bytes ∨ Unfinished boundary bytes ∨
      ∃ s rest, bytes = Stretch.bytes boundary s ++ rest ∧ s.Stands boundary rest := by
  by_cases hgoes : dashes <+: bytes
  · exact .inl hgoes
  · right
    obtain ⟨lead, hbytes, hlead⟩ := exists_lead bytes
    rcases cutAt_cases (closing boundary) (afterLineBreak bytes) with
      ⟨-, hnone⟩ | ⟨part, rest, hafter, hcut⟩
    · exact .inl ⟨hgoes, lead, _, hbytes, hlead, hnone⟩
    · have hs : bytes = Stretch.bytes boundary ⟨lead, part⟩ ++ rest := by
        rw [hbytes, hafter]
        simp [Stretch.bytes]
      exact .inr ⟨⟨lead, part⟩, rest, hs, hs ▸ hgoes, hafter ▸ hlead, hcut⟩

/-- **Stretches stand up to a place where reading stops**: the body ends there, or nothing ends, or
the next part is not acceptable. -/
theorem exists_stand (boundary : String) (bytes : Bytes) :
    ∃ stretches parts rest, bytes = stretches.flatMap (Stretch.bytes boundary) ++ rest ∧
      Stand boundary stretches rest ∧ Accepted stretches parts ∧
      (dashes <+: rest ∨ Unfinished boundary rest ∨
        ∃ s rest' fault, rest = Stretch.bytes boundary s ++ rest' ∧ s.Stands boundary rest' ∧
          readPart s.part = .error fault) := by
  induction hn : bytes.length using Nat.strongRecOn generalizing bytes with
  | ind n ih =>
    rcases stretch_cases boundary bytes with hend | hunfinished | ⟨s, rest, rfl, hs⟩
    · exact ⟨[], [], bytes, rfl, trivial, .nil, .inl hend⟩
    · exact ⟨[], [], bytes, rfl, trivial, .nil, .inr (.inl hunfinished)⟩
    · cases hpart : readPart s.part with
      | error fault =>
        exact ⟨[], [], _, rfl, trivial, .nil, .inr (.inr ⟨s, rest, fault, rfl, hs, hpart⟩)⟩
      | ok p =>
        have hlt : rest.length < n := by
          rw [← hn]
          simp [Stretch.bytes, closing]
          omega
        obtain ⟨stretches, parts, rest', rfl, hstand, hparts, hstop⟩ := ih _ hlt rest rfl
        exact ⟨s :: stretches, p :: parts, rest', by simp, ⟨hs, hstand⟩, .cons hpart hparts, hstop⟩

/-- A body up to a delimiter with `rest` behind it: a preamble, the first delimiter, and stretches
that each end with the next one. -/
def Opens (boundary : String) (body : Bytes) (stretches : List Stretch) (rest : Bytes) : Prop :=
  ∃ preamble,
    body = preamble ++ delimiter boundary ++ (stretches.flatMap (·.bytes boundary) ++ rest) ∧
    IsCut (delimiter boundary) preamble (stretches.flatMap (·.bytes boundary) ++ rest) ∧
    Stand boundary stretches rest

theorem read_opens (h : Opens boundary body stretches rest) (hparts : Accepted stretches parts) :
    read boundary body = addParts boundary (Form.ofParts parts) rest := by
  obtain ⟨preamble, rfl, hcut, hstand⟩ := h
  rw [read, cutAt_append_of_isCut hcut]
  show addParts boundary .empty _ = _
  rw [addParts_stand hstand hparts, foldl_push]
  rfl

@[simp] theorem addParts_dashes (form : Form) (epilogue : Bytes) :
    addParts boundary form (dashes ++ epilogue) = .ok form := by
  rw [addParts]
  simp

theorem opens_concat_iff {s : Stretch} : Opens boundary body (stretches ++ [s]) rest ↔
    Opens boundary body stretches (s.bytes boundary ++ rest) ∧ s.Stands boundary rest := by
  simp [Opens, stand_append, Stand, ← and_assoc]

/-- **What becomes of a body**: it has the form of its parts, or the first thing that is wrong with
it from left to right. -/
inductive Decides (boundary : String) (body : Bytes) : Except FormFault Form → Prop where
  | form {stretches : List Stretch} {parts : List Part} {epilogue : Bytes}
      (opens : Opens boundary body stretches (dashes ++ epilogue))
      (accepted : Accepted stretches parts) : Decides boundary body (.ok (Form.ofParts parts))
  | missing (none : ¬ delimiter boundary <:+: body) :
      Decides boundary body (.error .missingDelimiter)
  | truncated {stretches : List Stretch} {parts : List Part} {rest : Bytes}
      (opens : Opens boundary body stretches rest) (accepted : Accepted stretches parts)
      (unfinished : Unfinished boundary rest) : Decides boundary body (.error .truncated)
  | part {stretches : List Stretch} {parts : List Part} {s : Stretch} {rest : Bytes}
      {fault : FormFault} (opens : Opens boundary body (stretches ++ [s]) rest)
      (accepted : Accepted stretches parts) (wrong : readPart s.part = .error fault) :
      Decides boundary body (.error fault)

theorem decides_read (boundary : String) (body : Bytes) :
    Decides boundary body (read boundary body) := by
  rcases cutAt_cases (delimiter boundary) body with ⟨hcut, hnone⟩ | ⟨preamble, bytes, hbody, hcut⟩
  · rw [read, hcut]
    exact .missing hnone
  · obtain ⟨stretches, parts, rest, rfl, hstand, hparts, hstop⟩ := exists_stand boundary bytes
    have hopens : Opens boundary body stretches rest := ⟨preamble, hbody, hcut, hstand⟩
    rw [read_opens hopens hparts]
    rcases hstop with ⟨epilogue, rfl⟩ | hunfinished | ⟨s, rest, fault, rfl, hs, hfault⟩
    · rw [addParts_dashes]
      exact .form hopens hparts
    · rw [addParts_unfinished hunfinished]
      exact .truncated hopens hparts hunfinished
    · rw [addParts_stands hs, hfault]
      exact .part (opens_concat_iff.mpr ⟨hopens, hs⟩) hparts hfault

/-- **Reading gives what becomes of the body**, and that is only one thing. -/
theorem read_eq_iff {x : Except FormFault Form} :
    read boundary body = x ↔ Decides boundary body x := by
  refine ⟨fun h => h ▸ decides_read boundary body, fun h => ?_⟩
  cases h with
  | form opens accepted => rw [read_opens opens accepted, addParts_dashes]
  | missing none => rw [read, Option.isNone_iff_eq_none.mp (isNone_cutAt.mpr none)]
  | truncated opens accepted unfinished =>
    rw [read_opens opens accepted, addParts_unfinished unfinished]
  | part opens accepted wrong =>
    obtain ⟨hopens, hs⟩ := opens_concat_iff.mp opens
    rw [read_opens hopens accepted, addParts_stands hs, wrong]

end Multipart

end HttpDispatch
