import Mathlib.Data.List.Basic
import Mathlib.Data.List.Forall2
import HttpDispatch.Message.MediaType
import HttpDispatch.Proofs.Message.Lines
import HttpDispatch.Proofs.Text.Case

/-!
# Media types in notation

A media type that has been read is written and read again. Whatever text it was read from, its type,
its subtype and the names of its parameters are in normal form: in lower case, with nothing around
them to trim, and free of what would separate. Its values are free of semicolons. They were trimmed
first and had their quotes stripped off then, so they may end in blanks that stood between quotes.
Writing adds no quotes, and such blanks are lost.

* `MediaType.IsRange`, `MediaType.IsReadParam`, `MediaType.IsRead`: media types as they are read;
* `MediaType.isRead_of_ofText?`, `MediaType.forall₂_of_ofText?`: what is read, and from which parts;
* `MediaType.IsRead.ofText?_render`: what is read when a media type is written;
* `MediaType.IsPlain`, `MediaType.unquote_trim_eq_self_iff`: the values that are kept;
* `MediaType.render_is_read_back`: when a media type is read back, where its parameters come from,
  and its normal form.
-/

namespace HttpDispatch

namespace MediaType

variable {m : MediaType} {q : String × String} {text : String}

/-! ### Media types as they are read -/

/-- A type or a subtype in normal form: something in lower case with nothing around it to trim. -/
structure IsNormal (s : String) : Prop where
  nonempty : s ≠ ""
  trimmed : Text.trim s = s
  lower : Text.lower s = s

/-- Type and subtype as they are read. A range that covers every type covers every subtype. -/
structure IsRange (m : MediaType) : Prop where
  kind : IsNormal m.kind
  subtype : IsNormal m.subtype
  slash : '/' ∉ m.kind.toList
  every : m.kind = "*" → m.subtype = "*"

/-- A parameter as it is read. -/
structure IsReadParam (q : String × String) : Prop where
  trimmed : Text.trim q.1 = q.1
  lower : Text.lower q.1 = q.1
  equals : '=' ∉ q.1.toList
  name : ';' ∉ q.1.toList
  value : ';' ∉ q.2.toList

/-- **A media type as it is read**, whatever text it is read from. -/
structure IsRead (m : MediaType) : Prop where
  range : m.IsRange
  kind : ';' ∉ m.kind.toList
  subtype : ';' ∉ m.subtype.toList
  params : ∀ q ∈ m.params, IsReadParam q

/-! ### Reading -/

@[simp] theorem lower_eq_empty_iff {s : String} : Text.lower s = "" ↔ s = "" := by
  rw [← String.toList_inj, ← String.toList_inj, Text.toList_lower]
  exact List.map_eq_nil_iff

@[simp] theorem lower_eq_star_iff {s : String} : Text.lower s = "*" ↔ s = "*" := by
  rw [← String.toList_inj, ← String.toList_inj, Text.toList_lower]
  show s.toList.map Char.toLower = ['*'] ↔ s.toList = ['*']
  rw [List.map_eq_singleton_iff]
  simp only [Text.toLower_eq_iff (d := '*') (by decide) (by decide), exists_eq_right]

@[simp] theorem trim_lower_trim (s : String) :
    Text.trim (Text.lower (Text.trim s)) = Text.lower (Text.trim s) :=
  Text.trim_eq_self_iff.mpr (Text.endsWithout_trim s).lower

theorem isNormal_lower_trim {s : String} (h : Text.trim s ≠ "") :
    IsNormal (Text.lower (Text.trim s)) where
  nonempty hempty := h (lower_eq_empty_iff.mp hempty)
  trimmed := trim_lower_trim s
  lower := Text.lower_lower _

theorem mem_of_mem_lower_trim {s : String} {d : Char} (hd : d ∈ ['/', ';', '='])
    (h : d ∈ (Text.lower (Text.trim s)).toList) : d ∈ s.toList := by
  have hmark : ¬ (0x61 ≤ d.toNat ∧ d.toNat ≤ 0x7A) ∧ ¬ (0x41 ≤ d.toNat ∧ d.toNat ≤ 0x5A) := by
    simp only [List.mem_cons, List.not_mem_nil, or_false] at hd
    rcases hd with rfl | rfl | rfl <;> decide
  rw [Text.mem_lower_iff hmark.1 hmark.2] at h
  exact Text.mem_of_mem_trim h

theorem exists_of_ofEssence? (h : ofEssence? text = some m) :
    ∃ range kind subtype, (range = Text.trim text ∨ range = "*/*") ∧
      Text.splitOnce '/' range = some (kind, subtype) ∧
      Text.trim kind ≠ "" ∧ Text.trim subtype ≠ "" ∧
      (Text.trim kind = "*" → Text.trim subtype = "*") ∧
      m = of (Text.trim kind) (Text.trim subtype) := by
  unfold ofEssence? at h
  dsimp only at h
  generalize hrange : (if Text.trim text = "*" then "*/*" else Text.trim text) = range at h
  have hcases : range = Text.trim text ∨ range = "*/*" := by
    rw [← hrange]
    split
    · exact .inr rfl
    · exact .inl rfl
  split at h
  · nomatch h
  · next kind subtype hsplit =>
    split at h
    · nomatch h
    · next hfits =>
      simp only [Bool.or_eq_true, Bool.and_eq_true, decide_eq_true_eq, bne_iff_ne, not_or,
        not_and, ne_eq, Decidable.not_not] at hfits
      obtain ⟨⟨hkind, hsubtype⟩, hevery⟩ := hfits
      exact ⟨range, kind, subtype, hcases, hsplit, hkind, hsubtype, hevery,
        (Option.some.inj h).symm⟩

/-- **Type and subtype are read in normal form**, and no semicolon comes into them. -/
theorem isRead_of_ofEssence? (htext : ';' ∉ text.toList) (h : ofEssence? text = some m) :
    m.IsRead := by
  obtain ⟨range, kind, subtype, hrange, hsplit, hkind, hsubtype, hevery, rfl⟩ :=
    exists_of_ofEssence? h
  have hsemicolon : ';' ∉ range.toList := by
    rcases hrange with rfl | rfl
    · exact fun hmem => htext (Text.mem_of_mem_trim hmem)
    · decide
  obtain ⟨hchars, hslash⟩ := Text.eq_append_of_splitOnce hsplit
  rw [hchars, List.mem_append, List.mem_cons, not_or, not_or] at hsemicolon
  obtain ⟨hkind', -, hsubtype'⟩ := hsemicolon
  exact {
    range := {
      kind := isNormal_lower_trim hkind
      subtype := isNormal_lower_trim hsubtype
      slash := fun hmem => hslash (mem_of_mem_lower_trim (by decide) hmem)
      every := fun hstar => lower_eq_star_iff.mpr (hevery (lower_eq_star_iff.mp hstar)) }
    kind := fun hmem => hkind' (mem_of_mem_lower_trim (by decide) hmem)
    subtype := fun hmem => hsubtype' (mem_of_mem_lower_trim (by decide) hmem)
    params := List.forall_mem_nil _ }

/-- **Where a parameter comes from**: the first `=` of a text ends its name, its value is what
stands behind. -/
def IsReadFrom (value : String) (q : String × String) (text : String) : Prop :=
  ∃ name, Text.trim text = name ++ "=" ++ value ∧ '=' ∉ name.toList ∧
    q = (Text.lower (Text.trim name), Text.unquote (Text.trim value))

theorem IsReadFrom.isReadParam {value : String} (h : IsReadFrom value q text)
    (htext : ';' ∉ text.toList) : IsReadParam q := by
  obtain ⟨name, hchars, hequals, rfl⟩ := h
  have hsemicolon : ';' ∉ (Text.trim text).toList := fun hmem => htext (Text.mem_of_mem_trim hmem)
  rw [hchars] at hsemicolon
  simp only [String.toList_append, List.mem_append, not_or] at hsemicolon
  obtain ⟨⟨hname, -⟩, hvalue⟩ := hsemicolon
  exact {
    trimmed := trim_lower_trim name
    lower := Text.lower_lower _
    equals := fun hmem => hequals (mem_of_mem_lower_trim (by decide) hmem)
    name := fun hmem => hname (mem_of_mem_lower_trim (by decide) hmem)
    value := fun hmem => hvalue (Text.mem_of_mem_trim (Text.mem_of_mem_unquote hmem)) }

/-- The parts that are parameters. -/
def paramParts (text : String) : List String :=
  (Text.split ';' text).tail.filter fun part => Text.trim part ≠ ""

theorem exists_of_readParam? {l : List (String × String)} (htext : Text.trim text ≠ "")
    (h : readParam? text = some l) : ∃ q value, l = [q] ∧ IsReadFrom value q text := by
  unfold readParam? at h
  dsimp only at h
  rw [if_neg htext] at h
  obtain ⟨⟨name, value⟩, hsplit, rfl⟩ := Option.map_eq_some_iff.mp h
  obtain ⟨hchars, hequals⟩ := Text.eq_append_of_splitOnce hsplit
  refine ⟨_, value, rfl, name, ?_, hequals, rfl⟩
  rw [← String.toList_inj, hchars]
  simp

theorem forall₂_isReadFrom {parts : List String} {params : List (List (String × String))}
    (h : parts.mapM readParam? = some params) :
    List.Forall₂ (fun q part => ∃ value, IsReadFrom value q part) params.flatten
      (parts.filter fun part => Text.trim part ≠ "") := by
  induction parts generalizing params with
  | nil =>
    cases h
    exact .nil
  | cons part parts ih =>
    rw [List.mapM_cons] at h
    obtain ⟨l, hl, h⟩ := Option.bind_eq_some_iff.mp h
    obtain ⟨rest, hrest, h⟩ := Option.bind_eq_some_iff.mp h
    obtain rfl := Option.some.inj h
    by_cases hblank : Text.trim part = ""
    · have hnone : l = [] := by
        unfold readParam? at hl
        dsimp only at hl
        rw [if_pos hblank] at hl
        exact (Option.some.inj hl).symm
      rw [hnone, List.flatten_cons, List.nil_append,
        List.filter_cons_of_neg (by simpa using hblank)]
      exact ih hrest
    · obtain ⟨q, value, rfl, hread⟩ := exists_of_readParam? hblank hl
      rw [List.filter_cons_of_pos (by simpa using hblank)]
      exact .cons ⟨value, hread⟩ (ih hrest)

/-- The parts of a text that is a media type: the first one is its essence, the others are its
parameters. -/
theorem exists_of_ofText? (h : ofText? text = some m) :
    ∃ essence parts m₀ params, Text.split ';' text = essence :: parts ∧
      ofEssence? essence = some m₀ ∧ parts.mapM readParam? = some params ∧
      m = { m₀ with params := params.flatten } := by
  unfold ofText? at h
  split at h
  · cases h
  · next essence parts hsplit =>
    obtain ⟨m₀, hm₀, h⟩ := Option.bind_eq_some_iff.mp h
    obtain ⟨params, hparams, h⟩ := Option.bind_eq_some_iff.mp h
    cases h
    exact ⟨essence, parts, m₀, params, hsplit, hm₀, hparams, rfl⟩

/-- **The parameters come from the parts of the text** behind the essence, in their order. -/
theorem forall₂_of_ofText? (h : ofText? text = some m) :
    List.Forall₂ (fun q part => ∃ value, IsReadFrom value q part) m.params (paramParts text) := by
  obtain ⟨essence, parts, m₀, params, hsplit, -, hparams, rfl⟩ := exists_of_ofText? h
  rw [paramParts, hsplit]
  exact forall₂_isReadFrom hparams

theorem not_mem_of_mem_paramParts {part : String} (h : part ∈ paramParts text) :
    ';' ∉ part.toList :=
  Text.not_mem_of_mem_split (List.mem_of_mem_tail (List.mem_of_mem_filter h))

/-- **What is read from a text** is in normal form. -/
theorem isRead_of_ofText? (h : ofText? text = some m) : m.IsRead := by
  have hparams : ∀ q ∈ m.params, IsReadParam q := by
    intro q hq
    obtain ⟨i, hi, rfl⟩ := List.getElem_of_mem hq
    have hread := forall₂_of_ofText? h
    have hi' : i < (paramParts text).length := hread.length_eq ▸ hi
    obtain ⟨value, hread⟩ := hread.get hi hi'
    exact hread.isReadParam (not_mem_of_mem_paramParts (List.getElem_mem hi'))
  obtain ⟨essence, parts, m₀, params, hsplit, hessence, -, rfl⟩ := exists_of_ofText? h
  have hsemicolon : ';' ∉ essence.toList :=
    Text.not_mem_of_mem_split (hsplit ▸ List.mem_cons_self)
  obtain ⟨hrange, hkind, hsubtype, -⟩ := isRead_of_ofEssence? hsemicolon hessence
  exact ⟨⟨hrange.kind, hrange.subtype, hrange.slash, hrange.every⟩, hkind, hsubtype, hparams⟩

/-! ### Writing -/

@[simp] theorem toList_essence (m : MediaType) :
    m.essence.toList = m.kind.toList ++ '/' :: m.subtype.toList := by
  simp [essence]

theorem essence_ne_star (m : MediaType) : m.essence ≠ "*" := by
  intro heq
  have hmem : '/' ∈ m.essence.toList := by rw [toList_essence]; simp
  rw [heq] at hmem
  exact absurd hmem (by decide)

theorem IsNormal.toList_ne_nil {s : String} (h : IsNormal s) : s.toList ≠ [] := by
  intro hnil
  exact h.nonempty (String.toList_inj.mp hnil)

/-- **Type and subtype** are read as they were written. -/
theorem IsRange.ofEssence?_essence (h : m.IsRange) :
    ofEssence? m.essence = some { m with params := [] } := by
  have hkind := Text.trim_eq_self_iff.mp h.kind.trimmed
  have hsubtype := Text.trim_eq_self_iff.mp h.subtype.trimmed
  have hessence : Text.EndsWithout Text.isBlank m.essence := by
    refine ⟨fun c hc => ?_, fun c hc => ?_⟩
    · rw [toList_essence, List.head?_append_of_ne_nil _ h.kind.toList_ne_nil] at hc
      exact hkind.first c hc
    · rw [toList_essence, List.append_cons,
        List.getLast?_append_of_ne_nil _ h.subtype.toList_ne_nil] at hc
      exact hsubtype.last c hc
  have hcut : Text.splitOnce '/' m.essence = some (m.kind, m.subtype) :=
    Text.splitOnce_append (toList_essence m) h.slash
  have hfits : (decide (m.kind = "") || decide (m.subtype = "") ||
      (decide (m.kind = "*") && m.subtype != "*")) = false := by
    simpa [h.kind.nonempty, h.subtype.nonempty] using h.every
  unfold ofEssence?
  simp only [Text.trim_eq_self_iff.mpr hessence, if_neg (essence_ne_star m), hcut, h.kind.trimmed,
    h.subtype.trimmed, hfits, Bool.false_eq_true, if_false, of, h.kind.lower, h.subtype.lower]

/-- A parameter as it is written, behind its semicolon. -/
def writtenChars (q : String × String) : List Char := q.1.toList ++ '=' :: q.2.toList

@[simp] theorem toList_render (m : MediaType) :
    m.render.toList = m.essence.toList ++ (m.params.map writtenChars).flatMap (';' :: ·) := by
  rw [render, String.toList_append, String.toList_join, List.flatMap_map, List.flatMap_map]
  exact congrArg (fun f => _ ++ m.params.flatMap f) (funext fun q => by simp [writtenChars])

/-- What becomes of a parameter that is written: its value is trimmed and unquoted once more. -/
def reread (q : String × String) : String × String := (q.1, Text.unquote (Text.trim q.2))

/-- **A parameter is read as it was written**, but for the ends of its value. -/
theorem IsReadParam.readParam?_written (h : IsReadParam q) :
    readParam? (String.ofList (writtenChars q)) = some [reread q] := by
  have hname := Text.trim_eq_self_iff.mp h.trimmed
  let value := String.ofList (Text.stripEnd Text.isBlank q.2.toList)
  have hvalue : Text.trim value = Text.trim q.2 := by
    rw [Text.trim, String.toList_ofList, Text.stripEnds_stripEnd, Text.trim]
  -- the equals sign stays, so that only the name has a front and only the value an end to trim
  have htrim : Text.trim (String.ofList (writtenChars q)) = q.1 ++ "=" ++ value := by
    rw [Text.trim, String.toList_ofList, writtenChars,
      Text.stripEnds_append_cons hname.first (by decide), ← String.toList_inj]
    simp [value]
  have hne : q.1 ++ "=" ++ value ≠ "" := by
    intro heq
    have := congrArg String.toList heq
    simp at this
  have hcut : Text.splitOnce '=' (q.1 ++ "=" ++ value) = some (q.1, value) :=
    Text.splitOnce_append (by simp) h.equals
  unfold readParam?
  simp only [htrim, if_neg hne, hcut, Option.map_some, h.trimmed, h.lower, hvalue, reread]

/-- **A media type is read as it was written**, but for the ends of its values. -/
theorem IsRead.ofText?_render (h : m.IsRead) :
    ofText? m.render = some { m with params := m.params.map reread } := by
  have hsemicolon : ';' ∉ m.essence.toList := by
    rw [toList_essence]
    simp [h.kind, h.subtype]
  have hnone : ∀ l ∈ m.params.map writtenChars, ';' ∉ l := by
    intro l hl
    obtain ⟨q, hq, rfl⟩ := List.mem_map.mp hl
    simp [writtenChars, (h.params q hq).name, (h.params q hq).value]
  have hmap : ((m.params.map writtenChars).map String.ofList).mapM readParam? =
      some (m.params.map fun q => [reread q]) := by
    rw [List.map_map]
    exact mapM_map_eq_some fun q hq => (h.params q hq).readParam?_written
  rw [ofText?, Text.split, toList_render, Text.pieces_flatMap hsemicolon hnone, List.map_cons,
    String.ofList_toList]
  simp only [h.range.ofEssence?_essence, hmap, Option.bind_eq_bind, Option.bind_some]
  rw [← List.flatMap_def, ← List.map_eq_flatMap]
  rfl

/-! ### What is kept -/

/-- A value with neither a blank nor a quote at its ends. -/
def IsPlain (s : String) : Prop := Text.EndsWithout (fun c => Text.isBlank c || c == '"') s

instance (s : String) : Decidable (IsPlain s) := inferInstanceAs (Decidable (Text.EndsWithout _ s))

/-- **The plain values** are those that are kept. -/
theorem unquote_trim_eq_self_iff {s : String} : Text.unquote (Text.trim s) = s ↔ IsPlain s := by
  rw [IsPlain, Text.endsWithout_or, ← Text.trim_eq_self_iff, ← Text.unquote_eq_self_iff]
  constructor
  · intro h
    have hunquote : (Text.unquote (Text.trim s)).toList <:+: (Text.trim s).toList := by
      rw [Text.unquote, String.toList_ofList]
      exact Text.stripEnds_infix _ _
    have htrim : (Text.trim s).toList <:+: s.toList := by
      rw [Text.trim, String.toList_ofList]
      exact Text.stripEnds_infix _ _
    rw [h] at hunquote
    have hself : Text.trim s = s := String.toList_inj.mp
      (htrim.sublist.antisymm hunquote.sublist)
    exact ⟨hself, by rwa [hself] at h⟩
  · rintro ⟨htrim, hunquote⟩
    rw [htrim, hunquote]

theorem map_reread_eq_self_iff {params : List (String × String)} :
    params.map reread = params ↔ ∀ q ∈ params, IsPlain q.2 := by
  have hself : ∀ q : String × String, reread q = id q ↔ IsPlain q.2 := by
    intro q
    rw [← unquote_trim_eq_self_iff, reread, id, Prod.ext_iff]
    exact and_iff_right rfl
  calc params.map reread = params
      ↔ params.map reread = params.map id := by rw [List.map_id]
    _ ↔ ∀ q ∈ params, reread q = id q := List.map_inj_left
    _ ↔ ∀ q ∈ params, IsPlain q.2 := forall₂_congr fun q _ => hself q

theorem isPlain_of_unquoted {value : String} (h : Text.EndsWithout (· == '"') (Text.trim value)) :
    IsPlain (Text.unquote (Text.trim value)) := by
  rw [Text.unquote_eq_self_iff.mpr h]
  exact Text.endsWithout_or.mpr ⟨Text.endsWithout_trim value, h⟩

theorem ofText_eq_ok_iff : ofText text = .ok m ↔ ofText? text = some m := by
  unfold ofText
  split <;> simp_all

/-- **A media type is read back as it was written** exactly if its values are plain. Its parameters
come, in their order, from the parts of the text that are not blank, and a value is plain if it was
written without quotes. Type and subtype are in normal form, and a range that covers every type
covers every subtype. -/
theorem render_is_read_back (h : ofText text = .ok m) :
    (ofText m.render = .ok m ↔ ∀ q ∈ m.params, IsPlain q.2) ∧
    List.Forall₂ (fun q part => ∃ value, IsReadFrom value q part ∧
      (Text.EndsWithout (· == '"') (Text.trim value) → IsPlain q.2)) m.params (paramParts text) ∧
    m.IsRange := by
  rw [ofText_eq_ok_iff] at h
  have hread := isRead_of_ofText? h
  refine ⟨?_, (forall₂_of_ofText? h).imp ?_, hread.range⟩
  · rw [ofText_eq_ok_iff, hread.ofText?_render, Option.some.injEq, ← map_reread_eq_self_iff]
    exact ⟨congrArg params, fun hparams => by rw [hparams]⟩
  · rintro q part ⟨value, name, hchars, hequals, rfl⟩
    exact ⟨value, ⟨name, hchars, hequals, rfl⟩, isPlain_of_unquoted⟩

/-- A text with a slash in its subtype, an empty name and an empty value, an equals sign in a value,
an empty part and quotes. -/
def oddText : String := " Text/Vnd/X ; =; A==b ;;Charset=\"UTF-8\""

/-- What is read from it. -/
def oddMediaType : MediaType := ⟨"text", "vnd/x", [("", ""), ("a", "=b"), ("charset", "UTF-8")]⟩

/-- A media type with a blank that stood between quotes. -/
def paddedMediaType : MediaType := ⟨"a", "b", [("c", " d")]⟩

/-- The one is read back, the other is not. -/
theorem odd_is_read_back_padded_is_not :
    ofText oddText = .ok oddMediaType ∧ ofText oddMediaType.render = .ok oddMediaType ∧
    ofText "a/b;c=\" d\"" = .ok paddedMediaType ∧
      ofText paddedMediaType.render ≠ .ok paddedMediaType := by
  have hodd : ofText oddText = .ok oddMediaType := by decide +kernel
  have hpadded : ofText "a/b;c=\" d\"" = .ok paddedMediaType := by decide +kernel
  refine ⟨hodd, (render_is_read_back hodd).1.mpr (by decide), hpadded, fun hback => ?_⟩
  have hplain := (render_is_read_back hpadded).1.mp hback
  exact absurd hplain (by decide)

end MediaType

end HttpDispatch
