import HttpDispatch.Message.Multipart
import HttpDispatch.Proofs.Message.Notation

/-!
# Parameters as they are written

The disposition of a part and a media type have parameters behind them, each after a semicolon. A
disposition has its values between double quotes, a media type has them as they are. Names and
values are read as they were written if they do not have the characters that separate them, and
those that are not quoted have no blanks.

* `IsWord`, `IsQuotable`: what can stand alone, and what can stand between quotes;
* `Multipart.dispositionParams_written`: the parameters of a disposition;
* `MediaType.IsSingle.ofText?_written`: a media type with its parameters.
-/

namespace HttpDispatch

/-! ### Words -/

/-- A text without blanks, semicolons and double quotes. -/
structure IsWord (s : String) : Prop where
  blank : ∀ c ∈ s.toList, ¬ Text.isBlank c
  semicolon : ';' ∉ s.toList
  quote : '"' ∉ s.toList

instance (s : String) : Decidable (IsWord s) :=
  decidable_of_iff (s.toList.all (fun c => !Text.isBlank c) ∧ ';' ∉ s.toList ∧ '"' ∉ s.toList)
    ⟨fun h => ⟨by simpa using h.1, h.2.1, h.2.2⟩, fun h => ⟨by simpa using h.1, h.2, h.3⟩⟩

namespace IsWord

variable {s : String}

theorem trim_eq (h : IsWord s) : Text.trim s = s :=
  Text.trim_eq_self_iff.mpr (Text.endsWithout_of_forall_not h.blank)

theorem unquote_eq (h : IsWord s) : Text.unquote s = s :=
  Text.unquote_eq_self_iff.mpr (Text.endsWithout_of_not_mem h.quote)

end IsWord

theorem IsToken.not_isBlank {s : String} (h : IsToken s) : ∀ c ∈ s.toList, ¬ Text.isBlank c := by
  have hall : ∀ n < 0x80, Scan.isToken (UInt8.ofNat n) → ¬ Text.isBlank (Char.ofNat n) := by
    decide +kernel
  intro c hc
  have := hall c.toNat (h.ascii c hc) (h.token c hc)
  rwa [Char.ofNat_toNat] at this

theorem IsToken.not_mem {s : String} (h : IsToken s) {c : Char}
    (hc : ¬ Scan.isToken (UInt8.ofNat c.toNat)) : c ∉ s.toList := fun hmem => hc (h.token c hmem)

theorem IsToken.isWord {s : String} (h : IsToken s) : IsWord s where
  blank := h.not_isBlank
  semicolon := h.not_mem (by decide)
  quote := h.not_mem (by decide)

theorem IsToken.control {s : String} (h : IsToken s) :
    ∀ c ∈ s.toList, 0x20 ≤ c.toNat ∧ c.toNat ≠ 0x7F := by
  have hall : ∀ n < 0x80, Scan.isToken (UInt8.ofNat n) → 0x20 ≤ n ∧ n ≠ 0x7F := by decide +kernel
  exact fun c hc => hall c.toNat (h.ascii c hc) (h.token c hc)

/-- A text that can stand between quotes on a line: no quotes, no semicolons, no controls. -/
structure IsQuotable (s : String) : Prop where
  quote : '"' ∉ s.toList
  semicolon : ';' ∉ s.toList
  control : ∀ c ∈ s.toList, 0x20 ≤ c.toNat ∧ c.toNat ≠ 0x7F

instance (s : String) : Decidable (IsQuotable s) :=
  decidable_of_iff
    ('"' ∉ s.toList ∧ ';' ∉ s.toList ∧ s.toList.all fun c => 0x20 ≤ c.toNat ∧ c.toNat ≠ 0x7F)
    ⟨fun h => ⟨h.1, h.2.1, by simpa using h.2.2⟩, fun h => ⟨h.1, h.2, by simpa using h.3⟩⟩

theorem Text.trim_space_of_not_isBlank {s : String} (h : ∀ c ∈ s.toList, ¬ Text.isBlank c) :
    Text.trim (String.ofList (' ' :: s.toList)) = s := by
  rw [Text.trim_space, String.ofList_toList]
  exact Text.trim_eq_self_iff.mpr (Text.endsWithout_of_forall_not h)

/-! ### Dispositions -/

namespace Multipart

/-- A parameter with its value between quotes. -/
def quotedParam (q : String × String) : String := "; " ++ q.1 ++ "=\"" ++ q.2 ++ "\""

/-- A disposition with parameters. -/
def disposition (params : List (String × String)) : String :=
  "form-data" ++ String.join (params.map quotedParam)

/-- A parameter whose name is a token in lower case and whose value can be quoted. -/
structure IsParam (q : String × String) : Prop where
  name : IsToken q.1
  lower : Text.lower q.1 = q.1
  value : IsQuotable q.2

/-- A parameter after its semicolon. -/
def paramChars (q : String × String) : List Char :=
  ' ' :: q.1.toList ++ '=' :: ('"' :: q.2.toList ++ ['"'])

@[simp] theorem toList_quotedParam (q : String × String) :
    (quotedParam q).toList = ';' :: paramChars q := by
  simp [quotedParam, paramChars]

variable {q : String × String} {params : List (String × String)}

theorem IsParam.not_mem (h : IsParam q) : ';' ∉ paramChars q := by
  simp [paramChars, h.name.isWord.semicolon, h.value.semicolon]

/-- **A parameter is read as it was written.** -/
theorem IsParam.read (h : IsParam q) :
    ((Text.splitOnce '=' (String.ofList (paramChars q))).map fun p =>
      (Text.lower (Text.trim p.1), Text.unquote (Text.trim p.2))) = some q := by
  have hequals : '=' ∉ ' ' :: q.1.toList := by
    simpa using h.name.not_mem (c := '=') (by decide)
  rw [Text.splitOnce, String.toList_ofList, paramChars, Text.cutAt_append hequals]
  show some (Text.lower (Text.trim (String.ofList (' ' :: q.1.toList))),
    Text.unquote (Text.trim (String.ofList ('"' :: q.2.toList ++ ['"'])))) = some q
  rw [Text.trim_space_of_not_isBlank h.name.not_isBlank,
    Text.unquote_trim_quoted (Text.endsWithout_of_not_mem h.value.quote), h.lower]

/-- **The parameters of a disposition** are read as they were written. -/
theorem dispositionParams_written (h : ∀ q ∈ params, IsParam q) :
    dispositionParams (disposition params) = params := by
  have hchars : (disposition params).toList =
      "form-data".toList ++ (params.map paramChars).flatMap (';' :: ·) := by
    rw [disposition, String.toList_append, String.toList_join, List.flatMap_map, List.flatMap_map]
    exact congrArg (fun f => _ ++ params.flatMap f) (funext toList_quotedParam)
  have hnone : ∀ q ∈ params.map paramChars, ';' ∉ q := by
    intro l hl
    obtain ⟨q, hq, rfl⟩ := List.mem_map.mp hl
    exact (h q hq).not_mem
  rw [dispositionParams, Text.split, hchars, Text.pieces_flatMap (by decide) hnone, List.map_cons,
    List.drop_one, List.tail_cons, List.map_map, List.filterMap_map]
  clear hchars hnone
  induction params with
  | nil => rfl
  | cons q params ih =>
    refine (List.filterMap_cons_some ?_).trans
      (congrArg (q :: ·) (ih fun q hq => h q (List.mem_cons_of_mem _ hq)))
    exact (h q List.mem_cons_self).read

theorem control_disposition (h : ∀ q ∈ params, IsParam q) :
    ∀ c ∈ (disposition params).toList, 0x20 ≤ c.toNat ∧ c.toNat ≠ 0x7F := by
  intro c hc
  rw [disposition, String.toList_append, String.toList_join, List.flatMap_map, List.mem_append,
    List.mem_flatMap] at hc
  rcases hc with hc | ⟨q, hq, hc⟩
  · have hname : IsToken "form-data" := by decide
    exact hname.control c hc
  · rw [toList_quotedParam] at hc
    simp only [paramChars, List.mem_cons, List.mem_append, List.cons_append, List.not_mem_nil,
      or_false] at hc
    rcases hc with rfl | rfl | hc | rfl | rfl | hc | rfl
    · decide
    · decide
    · exact (h q hq).name.control c hc
    · decide
    · decide
    · exact (h q hq).value.control c hc
    · decide

end Multipart

/-! ### Media types -/

namespace MediaType

/-- A type and a subtype in lower case, not a range, without parameters. -/
structure IsSingle (m : MediaType) : Prop where
  kind : IsToken m.kind
  subtype : IsToken m.subtype
  lowerKind : Text.lower m.kind = m.kind
  lowerSubtype : Text.lower m.subtype = m.subtype
  star : '*' ∉ m.kind.toList
  params : m.params = []

instance (m : MediaType) : Decidable m.IsSingle :=
  decidable_of_iff (IsToken m.kind ∧ IsToken m.subtype ∧ Text.lower m.kind = m.kind ∧
      Text.lower m.subtype = m.subtype ∧ '*' ∉ m.kind.toList ∧ m.params = [])
    ⟨fun h => ⟨h.1, h.2.1, h.2.2.1, h.2.2.2.1, h.2.2.2.2.1, h.2.2.2.2.2⟩,
      fun h => ⟨h.1, h.2, h.3, h.4, h.5, h.6⟩⟩

variable {m : MediaType}

theorem isNormal_of_token {s : String} (h : IsToken s) (hlower : Text.lower s = s) :
    IsNormal s where
  nonempty heq := h.ne (by rw [heq]; rfl)
  trimmed := h.isWord.trim_eq
  lower := hlower

theorem IsSingle.isRange (h : IsSingle m) : m.IsRange where
  kind := isNormal_of_token h.kind h.lowerKind
  subtype := isNormal_of_token h.subtype h.lowerSubtype
  slash := h.kind.not_mem (by decide)
  every heq := absurd h.star (by rw [heq]; decide)

/-- **Type and subtype** are read as they were written. -/
theorem IsSingle.ofEssence? (h : IsSingle m) : MediaType.ofEssence? m.essence = some m := by
  rw [h.isRange.ofEssence?_essence, ← h.params]

/-- A parameter after its semicolon, its value without quotes. -/
def paramChars (q : String × String) : List Char := ' ' :: (q.1.toList ++ '=' :: q.2.toList)

/-- A media type in notation, with parameters. -/
def written (m : MediaType) (params : List (String × String)) : String :=
  m.essence ++ String.join (params.map fun q => "; " ++ q.1 ++ "=" ++ q.2)

/-- A parameter whose name is a token in lower case and whose value is a word. -/
structure IsParam (q : String × String) : Prop where
  name : IsToken q.1
  lower : Text.lower q.1 = q.1
  value : IsWord q.2

variable {q : String × String} {params : List (String × String)}

/-- **A parameter is read as it was written.** -/
theorem IsParam.readParam? (h : IsParam q) :
    MediaType.readParam? (String.ofList (paramChars q)) = some [q] := by
  have hchars : paramChars q = ' ' :: (q.1 ++ "=" ++ q.2).toList := by simp [paramChars]
  have hblank : ∀ c ∈ (q.1 ++ "=" ++ q.2).toList, ¬ Text.isBlank c := by
    intro c hc
    simp only [String.toList_append, List.mem_append] at hc
    rcases hc with (hc | hc) | hc
    · exact h.name.not_isBlank c hc
    · cases List.mem_singleton.mp hc
      decide
    · exact h.value.blank c hc
  have hne : q.1 ++ "=" ++ q.2 ≠ "" := by
    intro heq
    have := congrArg String.toList heq
    simp at this
  have hcut : Text.splitOnce '=' (q.1 ++ "=" ++ q.2) = some q := by
    have htext : (q.1 ++ "=" ++ q.2).toList = q.1.toList ++ '=' :: q.2.toList := by simp
    rw [Text.splitOnce, htext, Text.cutAt_append (h.name.not_mem (by decide)), Option.map_some,
      String.ofList_toList, String.ofList_toList]
  unfold MediaType.readParam?
  rw [hchars, Text.trim_space_of_not_isBlank hblank]
  simp only [if_neg hne, hcut, Option.map_some, h.name.isWord.trim_eq, h.lower, h.value.trim_eq,
    h.value.unquote_eq]

/-- **A media type with parameters** is read as it was written. -/
theorem IsSingle.ofText?_written (h : IsSingle m) (hparams : ∀ q ∈ params, IsParam q) :
    ofText? (m.written params) = some { m with params := params } := by
  have hchars : (m.written params).toList =
      m.essence.toList ++ (params.map paramChars).flatMap (';' :: ·) := by
    rw [written, String.toList_append, String.toList_join, List.flatMap_map, List.flatMap_map]
    exact congrArg (fun f => _ ++ params.flatMap f) (funext fun q => by simp [paramChars])
  have hsemicolon : ';' ∉ m.essence.toList := by
    rw [toList_essence]
    simp [h.kind.isWord.semicolon, h.subtype.isWord.semicolon]
  have hnone : ∀ l ∈ params.map paramChars, ';' ∉ l := by
    intro l hl
    obtain ⟨q, hq, rfl⟩ := List.mem_map.mp hl
    simp [paramChars, (hparams q hq).name.isWord.semicolon, (hparams q hq).value.semicolon]
  have hmap : ((params.map paramChars).map String.ofList).mapM readParam? =
      some (params.map ([·])) := by
    rw [List.map_map]
    exact mapM_map_eq_some fun q hq => (hparams q hq).readParam?
  rw [ofText?, Text.split, hchars, Text.pieces_flatMap hsemicolon hnone, List.map_cons,
    String.ofList_toList]
  show (MediaType.ofEssence? m.essence).bind _ = _
  rw [h.ofEssence?]
  show (((params.map paramChars).map String.ofList).mapM readParam?).bind _ = _
  rw [hmap]
  show some { m with params := (params.map ([·])).flatten } = _
  rw [← List.flatMap_def, List.flatMap_singleton']

theorem IsSingle.render_eq (h : IsSingle m) : m.render = m.essence := by
  rw [render, h.params]
  exact String.append_empty

theorem IsSingle.ofText?_render (h : IsSingle m) : ofText? m.render = some m := by
  have hwritten : ofText? (m.written []) = _ := h.ofText?_written fun q hq => by cases hq
  have htext : m.written [] = m.render := h.render_eq ▸ String.append_empty
  rw [htext] at hwritten
  rw [hwritten, ← h.params]

end MediaType

end HttpDispatch
