import HttpDispatch.Message.Request
import HttpDispatch.Proofs.Head.Written
import HttpDispatch.Proofs.Message.Parameters

/-!
# Forms as they are submitted

A client submits text fields and files, each as a part with a head of its own between delimiters.
The server reads the same fields and files, in the same order, as long as the boundary does not
begin a line of any content.

* `Part`, `encodeParts`: what is submitted, and how it is written;
* `Part.Fits`: names that can be quoted, and contents that the boundary does not cut;
* `Multipart.addPart_encode`, `Multipart.addParts_behind`: one part, and all parts;
* `Request.form_of_parts`: the form of a request whose body was written so.
-/

namespace HttpDispatch

/-! ### Parts -/

/-- What is submitted at once: a text field, or a file. -/
inductive Part where
  | text (name value : String)
  | file (file : File)
  deriving DecidableEq, Repr

namespace Part

/-- The bytes that are submitted. -/
def content : Part → Bytes
  | .text _ value => Utf8.encode value
  | .file f => f.data

/-- The parameters of the disposition. -/
def params : Part → List (String × String)
  | .text name _ => [("name", name)]
  | .file f => [("name", f.field), ("filename", f.filename)]

/-- The media type that is declared. -/
def contentType? : Part → Option MediaType
  | .text _ _ => none
  | .file f => f.contentType

/-- The head of a part. -/
def fields (p : Part) : List (String × String) :=
  ("Content-Disposition", Multipart.disposition p.params) ::
    p.contentType?.toList.map fun m => ("Content-Type", m.render)

/-- A part as it is written: its head, an empty line and its content. -/
def encode (p : Part) : Bytes :=
  p.fields.flatMap (fun f => fieldLine f ++ lineBreak) ++ lineBreak ++ p.content

/-- The value that a part gives to a name. -/
def value? (name : String) : Part → Option String
  | .text n value => if n = name then some value else none
  | .file _ => none

/-- The file that a part gives to a name. -/
def file? (name : String) : Part → Option File
  | .text _ _ => none
  | .file f => if f.field = name then some f else none

/-- A part that can be written: its names can be quoted, its media type is a single one, and no line
of its content begins with the delimiter. -/
structure Fits (boundary : String) (p : Part) : Prop where
  quotable : ∀ q ∈ p.params, IsQuotable q.2
  single : ∀ m ∈ p.contentType?, m.IsSingle
  first : ¬ Multipart.delimiter boundary <+: p.content
  later : ¬ Multipart.closing boundary <:+: p.content

instance (boundary : String) (p : Part) : Decidable (p.Fits boundary) :=
  decidable_of_iff ((∀ q ∈ p.params, IsQuotable q.2) ∧ (∀ m ∈ p.contentType?, m.IsSingle) ∧
      ¬ Multipart.delimiter boundary <+: p.content ∧
      (Multipart.cutAt (Multipart.closing boundary) p.content).isNone)
    ⟨fun h => ⟨h.1, h.2.1, h.2.2.1, Multipart.isNone_cutAt.mp h.2.2.2⟩,
      fun h => ⟨h.1, h.2, h.3, Multipart.isNone_cutAt.mpr h.4⟩⟩

end Part

namespace Multipart

/-- Parts as they are written, each after a delimiter and all before the last one. -/
def encodeParts (boundary : String) : List Part → Bytes
  | [] => delimiter boundary ++ dashes
  | p :: parts => delimiter boundary ++ lineBreak ++ p.encode ++ lineBreak ++ encodeParts boundary parts

/-- The form with one more part. -/
def push (form : Form) : Part → Form
  | .text name value => { form with fields := form.fields ++ [(name, value)] }
  | .file f => { form with files := form.files ++ [f] }

/-! ### The head of a part -/

variable {boundary : String} {p : Part} {parts : List Part} {form : Form}

theorem isValue_of_mem_encode {s : String} (h : ∀ c ∈ s.toList, 0x20 ≤ c.toNat ∧ c.toNat ≠ 0x7F)
    {b : UInt8} (hb : b ∈ Utf8.encode s) : Scan.isValue b := by
  have hvalue : 0x20 ≤ b.toNat ∧ b.toNat ≠ 0x7F := by
    by_cases hascii : b.toNat < 0x80
    · obtain ⟨c, hc, heq⟩ := Utf8.exists_of_mem_encode hb hascii
      exact heq ▸ h c hc
    · omega
  simp only [Scan.isValue, UInt8.le_iff_toNat_le, ← UInt8.toNat_inj, Bool.or_eq_true,
    Bool.and_eq_true, decide_eq_true_eq, ne_eq]
  exact .inr hvalue

theorem isParam_of_fits (h : p.Fits boundary) : ∀ q ∈ p.params, IsParam q := by
  have hname : IsToken "name" ∧ Text.lower "name" = "name" := by decide
  have hfilename : IsToken "filename" ∧ Text.lower "filename" = "filename" := by decide
  intro q hq
  have hquotable := h.quotable q hq
  cases p with
  | text name value =>
    cases List.mem_singleton.mp hq
    exact ⟨hname.1, hname.2, hquotable⟩
  | file f =>
    simp only [Part.params, List.mem_cons, List.not_mem_nil, or_false] at hq
    rcases hq with rfl | rfl
    · exact ⟨hname.1, hname.2, hquotable⟩
    · exact ⟨hfilename.1, hfilename.2, hquotable⟩

theorem getLast?_disposition (p : Part) :
    (Utf8.encode (disposition p.params)).getLast? = some 0x22 := by
  have hquote : ∀ s : String, (Utf8.encode (s ++ "\"")).getLast? = some 0x22 := by
    intro s
    rw [Utf8.encode_append, List.getLast?_append]
    rfl
  cases p with
  | text name value =>
    have htext : disposition (Part.text name value).params = "form-data; name=\"" ++ name ++ "\"" := by
      apply String.toList_injective
      simp [disposition, quotedParam, Part.params]
    rw [htext, hquote]
  | file f =>
    have htext : disposition (Part.file f).params =
        "form-data; name=\"" ++ f.field ++ "\"; filename=\"" ++ f.filename ++ "\"" := by
      apply String.toList_injective
      simp [disposition, quotedParam, Part.params]
    rw [htext, hquote]

theorem plainField_disposition (h : p.Fits boundary) :
    PlainField ("Content-Disposition", disposition p.params) where
  name := (by decide : IsToken "Content-Disposition")
  value b hb := isValue_of_mem_encode (control_disposition (isParam_of_fits h)) hb
  first b hb := by
    rw [disposition, Utf8.encode_append] at hb
    cases hb
    decide
  last b hb := by
    rw [getLast?_disposition] at hb
    cases hb
    decide

theorem plainField_contentType {m : MediaType} (h : m.IsSingle) :
    PlainField ("Content-Type", m.render) := by
  have hbytes : Utf8.encode m.render = Utf8.encode m.kind ++ 0x2F :: Utf8.encode m.subtype := by
    rw [h.render_eq, MediaType.essence, Utf8.encode_append, Utf8.encode_append, List.append_assoc]
    rfl
  -- a token has neither blanks nor controls, and neither is the stroke
  have hcodes : ∀ n < 0x100, Scan.isToken (UInt8.ofNat n) ∨ UInt8.ofNat n = 0x2F →
      Scan.isValue (UInt8.ofNat n) ∧ ¬ Scan.isGap (UInt8.ofNat n) := by decide +kernel
  have htoken : ∀ b : UInt8, Scan.isToken b ∨ b = 0x2F → Scan.isValue b ∧ ¬ Scan.isGap b := by
    intro b hb
    have := hcodes b.toNat b.toNat_lt
    rw [UInt8.ofNat_toNat] at this
    exact this hb
  have hall : ∀ b ∈ Utf8.encode m.render, Scan.isValue b ∧ ¬ Scan.isGap b := by
    intro b hb
    rw [hbytes, List.mem_append, List.mem_cons] at hb
    refine htoken b ?_
    rcases hb with hb | hb | hb
    · exact .inl (h.kind.isToken_of_mem hb)
    · exact .inr hb
    · exact .inl (h.subtype.isToken_of_mem hb)
  exact {
    name := (by decide : IsToken "Content-Type")
    value := fun b hb => (hall b hb).1
    first := fun b hb => (hall b (List.mem_of_mem_head? hb)).2
    last := fun b hb => (hall b (List.mem_of_mem_getLast? hb)).2 }

theorem plainField_fields (h : p.Fits boundary) : ∀ f ∈ p.fields, PlainField f := by
  intro f hf
  rw [Part.fields, List.mem_cons, List.mem_map] at hf
  rcases hf with rfl | ⟨m, hm, rfl⟩
  · exact plainField_disposition h
  · exact plainField_contentType (h.single m (Option.mem_toList.mp hm))

theorem length_fields_le (p : Part) : p.fields.length ≤ maxFields := by
  cases hm : p.contentType? <;> simp [Part.fields, hm, maxFields]

theorem field_disposition (h : p.Fits boundary) (d : Description) :
    d.field ("Content-Disposition", Utf8.encode (disposition p.params)) =
      p.params.foldl Description.param d := by
  have hname : Text.sameName "Content-Disposition" "content-disposition" := by decide
  simp [Description.field, hname, dispositionParams_written (isParam_of_fits h)]

theorem field_contentType {m : MediaType} (h : m.IsSingle) (d : Description) :
    d.field ("Content-Type", Utf8.encode m.render) = { d with contentType := some m } := by
  have hother : ¬ Text.sameName "Content-Type" "content-disposition" := by decide
  have hname : Text.sameName "Content-Type" "content-type" := by decide
  simp [Description.field, hother, hname, h.ofText?_render]

/-- What the head of a part says about it. -/
def described (p : Part) : Description :=
  { p.params.foldl Description.param {} with contentType := p.contentType? }

theorem foldl_field (h : p.Fits boundary) :
    (p.fields.map fun f => (f.1, Utf8.encode f.2)).foldl Description.field {} = described p := by
  rw [Part.fields, List.map_cons, List.foldl_cons, field_disposition h, described]
  cases hm : p.contentType? with
  | none => cases p <;> rfl
  | some m =>
    have hsingle := h.single m hm
    exact field_contentType hsingle _

/-- **A part is read as it was written.** -/
theorem addPart_encode (h : p.Fits boundary) (form : Form) :
    addPart form p.encode = .ok (push form p) := by
  have hread := Scan.run_fields (plainField_fields h) (length_fields_le p) p.content
  rw [addPart, Part.encode, hread]
  simp only [foldl_field h]
  cases p with
  | text name value =>
    have hname : (described (.text name value)).name = some name := rfl
    have hfilename : (described (.text name value)).filename = none := rfl
    simp [hname, hfilename, Part.content, push]
  | file f => rfl

/-! ### The body -/

@[simp] theorem afterLineBreak_append (bytes : Bytes) :
    afterLineBreak (lineBreak ++ bytes) = bytes := rfl

/-- The mark that ends a part does not begin before a line without a carriage return ends, nor
there if no delimiter follows. -/
theorem not_closing_infix_line {line rest : Bytes} (hline : 0x0D ∉ line)
    (hrest : ¬ delimiter boundary <+: rest) (hlater : ¬ closing boundary <:+: rest) :
    ¬ closing boundary <:+: line ++ lineBreak ++ rest := by
  have hclosing : closing boundary = 0x0D :: 0x0A :: delimiter boundary := rfl
  induction line with
  | nil =>
    show ¬ closing boundary <:+: 0x0D :: 0x0A :: rest
    rw [List.infix_cons_iff, List.infix_cons_iff, not_or, not_or]
    refine ⟨fun hp => hrest ?_, fun hp => ?_, hlater⟩
    · rw [hclosing, List.cons_prefix_cons, List.cons_prefix_cons] at hp
      exact hp.2.2
    · rw [hclosing, List.cons_prefix_cons] at hp
      exact absurd hp.1 (by decide)
  | cons b line ih =>
    rw [List.mem_cons, not_or] at hline
    rw [List.cons_append, List.cons_append, List.infix_cons_iff, not_or]
    refine ⟨fun hp => ?_, ih hline.2⟩
    rw [hclosing, List.cons_prefix_cons] at hp
    exact hline.1 hp.1

theorem not_delimiter_prefix_cons {b : UInt8} (hb : b ≠ 0x2D) (rest : Bytes) :
    ¬ delimiter boundary <+: b :: rest := by
  show ¬ 0x2D :: (0x2D :: Utf8.encode boundary) <+: b :: rest
  rw [List.cons_prefix_cons]
  exact fun hp => hb hp.1.symm

/-- **The mark that ends a part is not in it.** The lines of the head begin with the letter of
`Content`, and not with a dash. -/
theorem not_closing_infix_encode (h : p.Fits boundary) : ¬ closing boundary <:+: p.encode := by
  have hdisposition : (Utf8.encode "Content-Disposition").head? = some 0x43 := by decide
  have htype : (Utf8.encode "Content-Type").head? = some 0x43 := by decide
  have hstart : ∀ f ∈ p.fields, (fieldLine f).head? = some 0x43 := by
    intro f hf
    rw [Part.fields, List.mem_cons, List.mem_map] at hf
    rcases hf with rfl | ⟨m, -, rfl⟩
    · simp [fieldLine, hdisposition]
    · simp [fieldLine, htype]
  have hplain := plainField_fields h
  rw [Part.encode]
  generalize p.fields = fs at hstart hplain
  suffices hrest :
      ¬ delimiter boundary <+: fs.flatMap (fun f => fieldLine f ++ lineBreak) ++ lineBreak ++ p.content ∧
      ¬ closing boundary <:+: fs.flatMap (fun f => fieldLine f ++ lineBreak) ++ lineBreak ++ p.content
    from hrest.2
  induction fs with
  | nil =>
    exact ⟨not_delimiter_prefix_cons (by decide) _,
      not_closing_infix_line List.not_mem_nil h.first h.later⟩
  | cons f fs ih =>
    obtain ⟨hfirst, hlater⟩ := ih (fun f hf => hstart f (List.mem_cons_of_mem _ hf))
      fun f hf => hplain f (List.mem_cons_of_mem _ hf)
    have hline := not_closing_infix_line (hplain f List.mem_cons_self).not_mem hfirst hlater
    have hhead := hstart f List.mem_cons_self
    rw [List.flatMap_cons, List.append_assoc _ _ lineBreak, List.append_assoc (fieldLine f ++ lineBreak)]
    refine ⟨?_, hline⟩
    cases hf : fieldLine f with
    | nil => rw [hf] at hhead; cases hhead
    | cons b line =>
      rw [hf] at hhead
      cases hhead
      exact not_delimiter_prefix_cons (by decide) _

/-- What stands behind the first delimiter. -/
def behind (boundary : String) : List Part → Bytes
  | [] => dashes
  | p :: parts => lineBreak ++ p.encode ++ lineBreak ++ encodeParts boundary parts

theorem encodeParts_eq (boundary : String) (parts : List Part) :
    encodeParts boundary parts = delimiter boundary ++ behind boundary parts := by
  cases parts <;> simp [encodeParts, behind]

theorem behind_ne_nil (boundary : String) (parts : List Part) : behind boundary parts ≠ [] := by
  cases parts <;> simp [behind, dashes, lineBreak]

theorem cutAt_encode (hboundary : IsWord boundary) (h : p.Fits boundary) (rest : Bytes) :
    cutAt (closing boundary) (p.encode ++ closing boundary ++ rest) = some (p.encode, rest) := by
  have hcr : 0x0D ∉ 0x0A :: delimiter boundary := by
    have hname : 0x0D ∉ Utf8.encode boundary := fun hm =>
      hboundary.blank _ (Utf8.mem_encode hm (by decide)) (by decide)
    simp [delimiter, dashes, hname]
  exact cutAt_append hcr (not_closing_infix_encode h) rest

/-- **All parts are read as they were written**, one after the other. -/
theorem addParts_behind (hboundary : IsWord boundary) (h : ∀ p ∈ parts, p.Fits boundary)
    (form : Form) : addParts boundary form (behind boundary parts) = .ok (parts.foldl push form) := by
  induction parts generalizing form with
  | nil =>
    rw [addParts, behind, if_pos (by decide)]
    rfl
  | cons p parts ih =>
    have hp := h p List.mem_cons_self
    have hbytes : behind boundary (p :: parts) =
        lineBreak ++ (p.encode ++ closing boundary ++ behind boundary parts) := by
      rw [behind, encodeParts_eq, closing]
      simp [lineBreak]
    have hdashes : ¬ dashes.isPrefixOf (behind boundary (p :: parts)) := by
      rw [hbytes]
      exact Bool.false_ne_true
    have hcut := cutAt_encode hboundary hp (behind boundary parts)
    rw [addParts, if_neg hdashes]
    split
    · next hnone =>
      rw [hbytes, afterLineBreak_append, hcut] at hnone
      cases hnone
    · next part rest hsome =>
      rw [hbytes, afterLineBreak_append, hcut] at hsome
      cases hsome
      have hrest : (behind boundary parts).isEmpty = false := by
        simpa using behind_ne_nil boundary parts
      rw [addPart_encode hp]
      simp only [hrest, Bool.false_eq_true, if_false]
      exact ih (fun p hp => h p (List.mem_cons_of_mem _ hp)) (push form p)

@[simp] theorem cutAt_delimiter (boundary : String) (rest : Bytes) :
    cutAt (delimiter boundary) (delimiter boundary ++ rest) = some ([], rest) := by
  have hp : (delimiter boundary).isPrefixOf (delimiter boundary ++ rest) :=
    List.isPrefixOf_iff_prefix.mpr (List.prefix_append _ _)
  have hdrop : (delimiter boundary ++ rest).drop (delimiter boundary).length = rest :=
    List.drop_left
  obtain ⟨b, tail, htail⟩ : ∃ b tail, delimiter boundary ++ rest = b :: tail := ⟨_, _, rfl⟩
  rw [htail] at hp hdrop ⊢
  rw [cutAt, if_pos hp, hdrop]

/-- **A body is read as it was written.** -/
theorem read_encodeParts (hboundary : IsWord boundary) (h : ∀ p ∈ parts, p.Fits boundary) :
    read boundary (encodeParts boundary parts) = .ok (parts.foldl push .empty) := by
  rw [read, encodeParts_eq, cutAt_delimiter]
  exact addParts_behind hboundary h .empty

/-! ### What is submitted under a name -/

@[simp] theorem values_foldl_push (name : String) (form : Form) (parts : List Part) :
    (parts.foldl push form).values name = form.values name ++ parts.filterMap (Part.value? name) := by
  induction parts generalizing form with
  | nil => simp
  | cons p parts ih =>
    have hstep : (push form p).values name = form.values name ++ (p.value? name).toList := by
      cases p with
      | text n value => by_cases hn : n = name <;> simp [push, Part.value?, Form.values, valuesOf, hn]
      | file f => simp [push, Part.value?, Form.values]
    rw [List.foldl_cons, ih, hstep]
    cases hv : p.value? name <;> simp [hv]

@[simp] theorem filesOf_foldl_push (name : String) (form : Form) (parts : List Part) :
    (parts.foldl push form).filesOf name = form.filesOf name ++ parts.filterMap (Part.file? name) := by
  induction parts generalizing form with
  | nil => simp
  | cons p parts ih =>
    have hstep : (push form p).filesOf name = form.filesOf name ++ (p.file? name).toList := by
      cases p with
      | text n value => simp [push, Part.file?, Form.filesOf]
      | file f => by_cases hn : f.field = name <;> simp [push, Part.file?, Form.filesOf, hn]
    rw [List.foldl_cons, ih, hstep]
    cases hv : p.file? name <;> simp [hv]

@[simp] theorem size_foldl_push (form : Form) (parts : List Part) :
    (parts.foldl push form).size = form.size + parts.length := by
  induction parts generalizing form with
  | nil => simp
  | cons p parts ih =>
    have hstep : (push form p).size = form.size + 1 := by
      cases p <;> simp [push, Form.size] <;> omega
    rw [List.foldl_cons, ih, hstep, List.length_cons]
    omega

end Multipart

/-! ### Requests -/

namespace Request

variable {r : Request} {boundary : String} {parts : List Part}

theorem contentType?_of_boundary (hboundary : IsWord boundary)
    (htype : r.fields.get? "content-type" = some ("multipart/form-data; boundary=" ++ boundary)) :
    r.contentType? = some { MediaType.formData with params := [("boundary", boundary)] } := by
  have hname : IsToken "boundary" ∧ Text.lower "boundary" = "boundary" := by decide
  have hparam : ∀ q ∈ [("boundary", boundary)], MediaType.IsParam q := by
    intro q hq
    cases List.mem_singleton.mp hq
    exact ⟨hname.1, hname.2, hboundary⟩
  have htext : MediaType.formData.written [("boundary", boundary)] =
      "multipart/form-data; boundary=" ++ boundary := by
    apply String.toList_injective
    simp [MediaType.written, MediaType.essence, MediaType.formData, MediaType.of, Text.lower]
  rw [contentType?, htype, Option.bind_some, ← htext]
  have hsingle : MediaType.formData.IsSingle := by decide
  exact hsingle.ofText?_written hparam

/-- **A form is read as it was submitted.** The boundary is a word, the parts fit, and the request
declares the boundary and has the parts as its body: then the form can be read, and under every name
it has the values and the files that were submitted under that name, in the same order, and nothing
else. -/
theorem form_of_parts (hboundary : IsWord boundary) (hparts : ∀ p ∈ parts, p.Fits boundary)
    (htype : r.fields.get? "content-type" = some ("multipart/form-data; boundary=" ++ boundary))
    (hbody : r.body = Multipart.encodeParts boundary parts) :
    ∃ form, r.form = .ok form ∧
      (∀ name, form.values name = parts.filterMap (Part.value? name) ∧
        form.filesOf name = parts.filterMap (Part.file? name)) ∧
      form.size = parts.length := by
  have hform : r.form = .ok (parts.foldl Multipart.push .empty) := by
    have hother : MediaType.formData.essence ≠ MediaType.formUrlencoded.essence := by decide
    have hparam : ({ MediaType.formData with params := [("boundary", boundary)] }).param? "boundary" =
        some boundary := by simp [MediaType.param?, Text.sameName]
    have hessence : ({ MediaType.formData with params := [("boundary", boundary)] }).essence =
        MediaType.formData.essence := rfl
    rw [form, contentType?_of_boundary hboundary htype, ← Multipart.read_encodeParts hboundary hparts,
      ← hbody]
    simp only [hessence, if_neg hother, if_true, hparam]
  refine ⟨_, hform, fun name => ⟨?_, ?_⟩, ?_⟩
  · exact Multipart.values_foldl_push name .empty parts
  · exact Multipart.filesOf_foldl_push name .empty parts
  · rw [Multipart.size_foldl_push]
    simp [Form.size, Form.empty]

/-- A field, a file whose content has the beginning of a delimiter in it, and an empty field. -/
def submission : List Part :=
  [.text "note" "a\r\n--x", .file ⟨"photo", "my photo.png", some (.of "image" "png"),
    [0x2D, 0x2D, 0x0D, 0x0A, 0x2D, 0x2D, 0x78, 0xFF]⟩, .text "note" ""]

/-- The submission is read from the body of a request. -/
theorem submission_is_read :
    ∃ form,
      Request.form ⟨.post, "/", none, 1,
        ⟨[("Content-Type", "multipart/form-data; boundary=x-1")]⟩,
        Multipart.encodeParts "x-1" submission⟩ = .ok form ∧
      form.values "note" = ["a\r\n--x", ""] ∧
      form.filesOf "photo" = [⟨"photo", "my photo.png", some (.of "image" "png"),
        [0x2D, 0x2D, 0x0D, 0x0A, 0x2D, 0x2D, 0x78, 0xFF]⟩] ∧
      form.size = 3 := by
  have hboundary : IsWord "x-1" := by decide
  have hparts : ∀ p ∈ submission, p.Fits "x-1" := by decide +kernel
  obtain ⟨form, hform, hnames, hsize⟩ := form_of_parts hboundary hparts
    (r := ⟨.post, "/", none, 1, ⟨[("Content-Type", "multipart/form-data; boundary=x-1")]⟩,
      Multipart.encodeParts "x-1" submission⟩) (by decide) rfl
  refine ⟨form, hform, (hnames "note").1.trans ?_, (hnames "photo").2.trans ?_, hsize⟩
  · decide
  · decide

end Request

end HttpDispatch
