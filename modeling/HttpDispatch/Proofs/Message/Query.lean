import Mathlib.Data.List.Forall2
import Mathlib.Data.List.Induction
import HttpDispatch.Message.Request
import HttpDispatch.Proofs.Text.Percent
import HttpDispatch.Proofs.Text.Split

/-!
# Pairs in queries and in forms

A list of pairs of texts is written in one line: each pair as its halves with `=` between them, the
pairs with `&` between them. In the halves every byte of the UTF-8 form is escaped that is no
letter, digit or one of four marks; a space may be a plus sign. The line is read back as the pairs
that were written, in a query, where the values of a name are gathered, as in a url-encoded body,
where they are kept in a list. On all other lines, too, queries and bodies agree.

* `Groups.lookup_ofPairs`: what is gathered under a name;
* `WritesByte`, `WritesText`, `WritesPair`, `WritesLine`: how pairs are written;
* `decodeComponent_of_writes`, `decodePairs_of_writes`: they are read as they were written;
* `Request.query_agrees_with_form`: queries and bodies.
-/

namespace HttpDispatch

/-! ### What is gathered -/

@[simp] theorem valuesOf_append (name : String) (l m : List (String × String)) :
    valuesOf name (l ++ m) = valuesOf name l ++ valuesOf name m := by
  rw [valuesOf, List.filter_append, List.map_append]
  rfl

namespace Groups

theorem lookup_enter (k name value : String) (groups : Groups) :
    (groups.enter name value).lookup k =
      if k = name then some ((groups.lookup k).getD [] ++ [value]) else groups.lookup k := by
  induction groups with
  | nil =>
    by_cases hk : k = name
    · simp [enter, hk]
    · have hbeq : (k == name) = false := beq_false_of_ne hk
      simp [enter, List.lookup_cons, hk, hbeq]
  | cons g groups ih =>
    obtain ⟨other, values⟩ := g
    by_cases hother : other = name
    · subst hother
      by_cases hk : k = other
      · simp [enter, hk]
      · have hbeq : (k == other) = false := beq_false_of_ne hk
        simp [enter, List.lookup_cons, hk, hbeq]
    · rw [enter, if_neg hother, List.lookup_cons, List.lookup_cons, ih]
      by_cases hk : k = other
      · simp [hk, hother]
      · have hbeq : (k == other) = false := beq_false_of_ne hk
        rw [hbeq]

/-- **What is gathered under a name** are its values in order; a name without values is not
there. -/
@[simp] theorem lookup_ofPairs (pairs : List (String × String)) (name : String) :
    (ofPairs pairs).lookup name =
      if valuesOf name pairs = [] then none else some (valuesOf name pairs) := by
  induction pairs using List.reverseRecOn with
  | nil => rfl
  | append_singleton pairs p ih =>
    have hstep : ofPairs (pairs ++ [p]) = (ofPairs pairs).enter p.1 p.2 := by
      rw [ofPairs, List.foldl_append]
      rfl
    rw [hstep, lookup_enter, ih, valuesOf_append]
    by_cases hname : name = p.1
    · have hone : valuesOf name [p] = [p.2] := by simp [valuesOf, hname]
      rw [if_pos hname, hone, if_neg (List.append_ne_nil_of_right_ne_nil _ (List.cons_ne_nil _ _))]
      by_cases hempty : valuesOf name pairs = []
      · rw [if_pos hempty, hempty]
        rfl
      · rw [if_neg hempty]
        rfl
    · have hno : valuesOf name [p] = [] := by simp [valuesOf, Ne.symm hname]
      rw [if_neg hname, hno, List.append_nil]

end Groups

/-! ### How pairs are written -/

/-- **One byte as it is written**: as itself, as a plus sign if it is a space, or as an escape. -/
inductive WritesByte (b : UInt8) : List Char → Prop where
  | plain (unreserved : Percent.isUnreserved b) : WritesByte b [Char.ofNat b.toNat]
  | plus (space : b = 0x20) : WritesByte b ['+']
  | escape {x y : UInt8} (digits : Percent.pair? x y = some b) :
      WritesByte b ['%', Char.ofNat x.toNat, Char.ofNat y.toNat]

/-- A text as it is written, byte by byte. -/
def WritesText (s t : String) : Prop :=
  ∃ written, List.Forall₂ WritesByte (Utf8.encode s) written ∧ t = String.ofList written.flatten

/-- A pair as it is written. -/
def WritesPair (p : String × String) (t : String) : Prop :=
  ∃ key value, WritesText p.1 key ∧ WritesText p.2 value ∧ t = key ++ "=" ++ value

/-- **Pairs as they are written in one line.** -/
def WritesLine (pairs : List (String × String)) (text : String) : Prop :=
  ∃ written, List.Forall₂ WritesPair pairs written ∧ text = "&".intercalate written

/-! ### Bytes -/

/-- A byte that stands for an ASCII character and for none of the marks. -/
def IsInert (b : UInt8) : Prop := b.toNat < 0x80 ∧ Char.ofNat b.toNat ∉ ['%', '&', '+', '=']

instance (b : UInt8) : Decidable (IsInert b) := inferInstanceAs (Decidable (_ ∧ _))

theorem isInert_ofNat : ∀ n : Fin 256,
    (Percent.isUnreserved (UInt8.ofNat n) ∨ (Percent.digit? (UInt8.ofNat n)).isSome) →
      IsInert (UInt8.ofNat n) := by
  decide +kernel

theorem isInert_of_unreserved {b : UInt8} (h : Percent.isUnreserved b) : IsInert b := by
  obtain ⟨n, rfl⟩ := Percent.exists_eq_ofNat b
  exact isInert_ofNat n (.inl h)

theorem isInert_of_pair? {x y b : UInt8} (h : Percent.pair? x y = some b) :
    IsInert x ∧ IsInert y := by
  obtain ⟨m, rfl⟩ := Percent.exists_eq_ofNat x
  obtain ⟨n, rfl⟩ := Percent.exists_eq_ofNat y
  unfold Percent.pair? at h
  split at h
  · next hx hy =>
    exact ⟨isInert_ofNat m (.inr (by rw [hx]; rfl)), isInert_ofNat n (.inr (by rw [hy]; rfl))⟩
  · cases h

theorem ne_percent_of_isInert {b : UInt8} (h : IsInert b) : b ≠ 0x25 := by
  rintro rfl
  exact h.2 (by decide)

theorem encodeChar_of_isInert {b : UInt8} (h : IsInert b) :
    String.utf8EncodeChar (Char.ofNat b.toNat) = [b] := by
  have hnat : (Char.ofNat b.toNat).toNat = b.toNat := Percent.toNat_ofNat_of_ascii h.1
  rw [Utf8.encodeChar_of_ascii (by rw [hnat]; exact h.1), hnat, UInt8.ofNat_toNat]

/-! ### Components -/

/-- What is read for a plus sign: a space. -/
def plusToSpace (c : Char) : Char := if c = '+' then ' ' else c

theorem plusToSpace_of_isInert {b : UInt8} (h : IsInert b) :
    plusToSpace (Char.ofNat b.toNat) = Char.ofNat b.toNat := by
  have hne : Char.ofNat b.toNat ≠ '+' := fun heq => h.2 (by simp [heq])
  exact if_neg hne

/-- The bytes of characters, plus signs read as spaces. -/
def spacedBytes (l : List Char) : Bytes := (l.map plusToSpace).flatMap String.utf8EncodeChar

@[simp] theorem spacedBytes_append (l m : List Char) :
    spacedBytes (l ++ m) = spacedBytes l ++ spacedBytes m := by
  rw [spacedBytes, List.map_append, List.flatMap_append]
  rfl

theorem spacedBytes_singleton {b : UInt8} (h : IsInert b) :
    spacedBytes [Char.ofNat b.toNat] = [b] := by
  simp [spacedBytes, plusToSpace_of_isInert h, encodeChar_of_isInert h]

namespace WritesByte

variable {b : UInt8} {w : List Char}

/-- **A byte is read as it was written**, whatever comes behind it. -/
theorem unescape_append (h : WritesByte b w) (r : Bytes) :
    Percent.unescape (spacedBytes w ++ r) = b :: Percent.unescape r := by
  cases h with
  | plain unreserved =>
    have hinert := isInert_of_unreserved unreserved
    rw [spacedBytes_singleton hinert]
    exact Percent.unescape_cons (ne_percent_of_isInert hinert) r
  | plus space =>
    have hbytes : spacedBytes ['+'] = [0x20] := by decide
    rw [hbytes, space]
    exact Percent.unescape_cons (by decide) r
  | @escape x y digits =>
    obtain ⟨hx, hy⟩ := isInert_of_pair? digits
    have hbytes : spacedBytes ['%', Char.ofNat x.toNat, Char.ofNat y.toNat] = [0x25, x, y] := by
      have hpercent : spacedBytes ['%'] = [0x25] := by decide
      have hsplit : spacedBytes ['%', Char.ofNat x.toNat, Char.ofNat y.toNat] =
          spacedBytes ['%'] ++ (spacedBytes [Char.ofNat x.toNat] ++
            spacedBytes [Char.ofNat y.toNat]) := by
        rw [← spacedBytes_append, ← spacedBytes_append]
        rfl
      rw [hsplit, hpercent, spacedBytes_singleton hx, spacedBytes_singleton hy]
      rfl
    rw [hbytes, List.cons_append, List.cons_append, List.cons_append, List.nil_append,
      Percent.unescape, if_pos rfl]
    simp only [digits]

theorem not_mem (h : WritesByte b w) : '&' ∉ w ∧ '=' ∉ w := by
  have hchar : ∀ {x : UInt8}, IsInert x → Char.ofNat x.toNat ≠ '&' ∧ Char.ofNat x.toNat ≠ '=' :=
    fun hx => ⟨fun heq => hx.2 (by simp [heq]), fun heq => hx.2 (by simp [heq])⟩
  cases h with
  | plain unreserved =>
    have hb := hchar (isInert_of_unreserved unreserved)
    simp [Ne.symm hb.1, Ne.symm hb.2]
  | plus space => decide
  | escape digits =>
    have hx := hchar (isInert_of_pair? digits).1
    have hy := hchar (isInert_of_pair? digits).2
    simp [Ne.symm hx.1, Ne.symm hx.2, Ne.symm hy.1, Ne.symm hy.2]

end WritesByte

theorem unescape_flatten {bytes : Bytes} {written : List (List Char)}
    (h : List.Forall₂ WritesByte bytes written) :
    Percent.unescape (spacedBytes written.flatten) = bytes := by
  induction h with
  | nil => rfl
  | cons hb _ ih => simp [hb.unescape_append, ih]

/-- **A component is read as it was written.** -/
theorem decodeComponent_of_writes {s t : String} (h : WritesText s t) : decodeComponent t = s := by
  obtain ⟨written, hbytes, rfl⟩ := h
  have hspaced : Utf8.encode (String.ofList (written.flatten.map plusToSpace)) =
      spacedBytes written.flatten := by
    rw [Utf8.encode, String.toList_ofList]
    rfl
  have hdecode : Percent.decode (String.ofList (written.flatten.map plusToSpace)) = some s := by
    rw [Percent.decode, hspaced, unescape_flatten hbytes, Utf8.decode?_encode]
  rw [decodeComponent, String.toList_ofList, Percent.decodeOrKeep]
  exact (congrArg (Option.getD · _) hdecode).trans rfl

theorem not_mem_of_writes {s t : String} (h : WritesText s t) :
    '&' ∉ t.toList ∧ '=' ∉ t.toList := by
  obtain ⟨written, hbytes, rfl⟩ := h
  rw [String.toList_ofList]
  have hnone : ∀ w ∈ written, '&' ∉ w ∧ '=' ∉ w := by
    intro w hw
    obtain ⟨i, hi, rfl⟩ := List.getElem_of_mem hw
    exact (hbytes.get (by rwa [hbytes.length_eq]) hi).not_mem
  constructor
  · intro hmem
    obtain ⟨w, hw, hc⟩ := List.mem_flatten.mp hmem
    exact (hnone w hw).1 hc
  · intro hmem
    obtain ⟨w, hw, hc⟩ := List.mem_flatten.mp hmem
    exact (hnone w hw).2 hc

/-! ### Pairs -/

theorem decodePair_of_writes {p : String × String} {t : String} (h : WritesPair p t) :
    decodePair t = p := by
  obtain ⟨key, value, hkey, hvalue, rfl⟩ := h
  have hlist : (key ++ "=" ++ value).toList = key.toList ++ '=' :: value.toList := by simp
  have hcut : Text.splitOnce '=' (key ++ "=" ++ value) = some (key, value) := by
    rw [Text.splitOnce, hlist, Text.cutAt_append (not_mem_of_writes hkey).2]
    simp
  rw [decodePair, hcut, Option.getD_some, decodeComponent_of_writes hkey,
    decodeComponent_of_writes hvalue]

theorem WritesPair.separate {p : String × String} {t : String} (h : WritesPair p t) :
    '&' ∉ t.toList ∧ t ≠ "" := by
  obtain ⟨key, value, hkey, hvalue, rfl⟩ := h
  have hkey := (not_mem_of_writes hkey).1
  have hvalue := (not_mem_of_writes hvalue).1
  constructor
  · simp [hkey, hvalue]
  · intro hempty
    have hlist := congrArg String.toList hempty
    simp at hlist

theorem toList_intercalate (t : String) (ts : List String) :
    ("&".intercalate (t :: ts)).toList =
      t.toList ++ (ts.map String.toList).flatMap ('&' :: ·) := by
  induction ts generalizing t with
  | nil => simp
  | cons u ts ih =>
    rw [String.intercalate_cons_cons, String.toList_append, String.toList_append, ih]
    simp

/-- **Texts without `&` are cut apart** where they were put together. -/
theorem split_intercalate {t : String} {ts : List String} (h : ∀ u ∈ t :: ts, '&' ∉ u.toList) :
    Text.split '&' ("&".intercalate (t :: ts)) = t :: ts := by
  have hrest : ∀ q ∈ ts.map String.toList, '&' ∉ q := by
    intro q hq
    obtain ⟨u, hu, rfl⟩ := List.mem_map.mp hq
    exact h u (List.mem_cons_of_mem _ hu)
  rw [Text.split, toList_intercalate, Text.pieces_flatMap (h t List.mem_cons_self) hrest]
  simp

/-- **Pairs are read as they were written.** -/
theorem decodePairs_of_writes {pairs : List (String × String)} {text : String}
    (h : WritesLine pairs text) : decodePairs text = pairs := by
  obtain ⟨written, hpairs, rfl⟩ := h
  have hseparate : ∀ t ∈ written, '&' ∉ t.toList ∧ t ≠ "" := by
    intro t ht
    obtain ⟨i, hi, rfl⟩ := List.getElem_of_mem ht
    exact (hpairs.get (by rwa [hpairs.length_eq]) hi).separate
  have hmap : written.map decodePair = pairs := by
    clear hseparate
    induction hpairs with
    | nil => rfl
    | cons hp _ ih => rw [List.map_cons, decodePair_of_writes hp, ih]
  cases written with
  | nil =>
    cases hpairs
    decide
  | cons t ts =>
    have hkept : (t :: ts).filter (· != "") = t :: ts := by
      refine List.filter_eq_self.mpr fun u hu => ?_
      simp [(hseparate u hu).2]
    rw [decodePairs, split_intercalate fun u hu => (hseparate u hu).1, hkept, hmap]

/-! ### Every list of pairs can be written -/

theorem writesByte_escape (b : UInt8) :
    WritesByte b ((Percent.escape b).map fun c => Char.ofNat c.toNat) := by
  unfold Percent.escape
  split
  · next hunreserved => exact .plain hunreserved
  · obtain ⟨n, rfl⟩ := Percent.exists_eq_ofNat b
    exact .escape (Percent.pair?_digits n)

theorem writesText_encode (s : String) : WritesText s (Percent.encode s) := by
  refine ⟨(Utf8.encode s).map fun b => (Percent.escape b).map fun c => Char.ofNat c.toNat, ?_, ?_⟩
  · rw [List.forall₂_map_right_iff, List.forall₂_same]
    exact fun b _ => writesByte_escape b
  · rw [Percent.encode, List.map_flatMap, List.flatMap_def]

/-- Pairs with every byte escaped that has to be. -/
def encodePairs (pairs : List (String × String)) : String :=
  "&".intercalate (pairs.map fun p => Percent.encode p.1 ++ "=" ++ Percent.encode p.2)

theorem writesLine_encode (pairs : List (String × String)) :
    WritesLine pairs (encodePairs pairs) := by
  refine ⟨_, ?_, rfl⟩
  rw [List.forall₂_map_right_iff, List.forall₂_same]
  exact fun p _ => ⟨_, _, writesText_encode p.1, writesText_encode p.2, rfl⟩

/-! ### Requests -/

namespace Request

variable {q : Request} {path text : String} {m : MediaType} (method : Method) (version : Nat)
  (fields : Fields) (body : Bytes)

/-- **The values of a query parameter** are those of its name among the pairs of the query. -/
theorem queryParams_eq (r : Request) (name : String) :
    r.queryParams name = valuesOf name ((r.query.map decodePairs).getD []) := by
  rw [queryParams, queryGroups, Groups.lookup_ofPairs]
  split
  · next hempty => rw [hempty]; rfl
  · rfl

theorem queryParam?_eq (r : Request) (name : String) :
    r.queryParam? name = (r.queryParams name).head? := by
  rw [queryParams, queryParam?]
  cases r.queryGroups.lookup name <;> rfl

theorem of_query (h : '?' ∉ path.toList) :
    Request.of method (path ++ "?" ++ text) version fields body =
      ⟨method, path, some text, version, fields, body⟩ := by
  have hlist : (path ++ "?" ++ text).toList = path.toList ++ '?' :: text.toList := by simp
  have hcut : Text.splitOnce '?' (path ++ "?" ++ text) = some (path, text) := by
    rw [Text.splitOnce, hlist, Text.cutAt_append h]
    simp
  rw [Request.of, hcut]

theorem form_of_urlencoded (htype : q.contentType? = some m)
    (hessence : m.essence = MediaType.formUrlencoded.essence) :
    q.form = .ok (.ofUrlencoded q.body) := by
  rw [form, htype]
  exact if_pos hessence

/-- **Queries and url-encoded bodies are read alike**, and as they were written. Whatever text
stands behind the first question mark of a target, the path is what stands before it. A form that
has the same text as its body can be read; it has no files, and under every name the values that
the query has. If pairs were written in the text, these are, for every name, the values that were
paired with it, in their order. -/
theorem query_agrees_with_form (hpath : '?' ∉ path.toList) (htype : q.contentType? = some m)
    (hessence : m.essence = MediaType.formUrlencoded.essence) (hbody : q.body = Utf8.encode text) :
    let r := Request.of method (path ++ "?" ++ text) version fields body
    r.path = path ∧
    ∃ form, q.form = .ok form ∧ form.files = [] ∧
      (∀ name, r.queryParams name = form.values name) ∧
      (∀ name, r.queryParam? name = (form.values name).head?) ∧
      ∀ pairs, WritesLine pairs text → ∀ name,
        form.values name = (pairs.filter fun p => p.1 == name).map (·.2) := by
  intro r
  have hr : r = ⟨method, path, some text, version, fields, body⟩ := of_query _ _ _ _ hpath
  have hform : q.form = .ok ⟨decodePairs text, []⟩ := by
    rw [form_of_urlencoded htype hessence, Form.ofUrlencoded, hbody, Utf8.decodeLossy_encode]
  have hvalues : ∀ name, r.queryParams name = valuesOf name (decodePairs text) := by
    intro name
    rw [queryParams_eq, hr]
    rfl
  refine ⟨by rw [hr], _, hform, rfl, hvalues, fun name => ?_, fun pairs hpairs name => ?_⟩
  · rw [queryParam?_eq, hvalues]
    rfl
  · show valuesOf name (decodePairs text) = _
    rw [decodePairs_of_writes hpairs, valuesOf]

/-- A line with characters of several bytes, a plus sign for a space, separators in a value, an
empty name and one name twice, the digits of its escapes in either case. -/
def umlautLine : String := "%C3%bc=a+%E2%9C%93&=%26%3D&%c3%BC="

theorem writesLine_umlaut : WritesLine [("ü", "a ✓"), ("", "&="), ("ü", "")] umlautLine := by
  have hC3 : WritesByte 0xC3 ['%', 'C', '3'] := .escape (x := 0x43) (y := 0x33) (by decide)
  have hc3 : WritesByte 0xC3 ['%', 'c', '3'] := .escape (x := 0x63) (y := 0x33) (by decide)
  have hbc : WritesByte 0xBC ['%', 'b', 'c'] := .escape (x := 0x62) (y := 0x63) (by decide)
  have hBC : WritesByte 0xBC ['%', 'B', 'C'] := .escape (x := 0x42) (y := 0x43) (by decide)
  have hE2 : WritesByte 0xE2 ['%', 'E', '2'] := .escape (x := 0x45) (y := 0x32) (by decide)
  have h9C : WritesByte 0x9C ['%', '9', 'C'] := .escape (x := 0x39) (y := 0x43) (by decide)
  have h93 : WritesByte 0x93 ['%', '9', '3'] := .escape (x := 0x39) (y := 0x33) (by decide)
  have ha : WritesByte 0x61 ['a'] := .plain (by decide)
  have hname : WritesText "ü" "%C3%bc" := ⟨_, .cons hC3 (.cons hbc .nil), rfl⟩
  have hsame : WritesText "ü" "%c3%BC" := ⟨_, .cons hc3 (.cons hBC .nil), rfl⟩
  have hvalue : WritesText "a ✓" "a+%E2%9C%93" :=
    ⟨_, .cons ha (.cons (.plus rfl) (.cons hE2 (.cons h9C (.cons h93 .nil)))), rfl⟩
  have hempty : WritesText "" "" := ⟨_, .nil, rfl⟩
  exact ⟨_, .cons ⟨_, _, hname, hvalue, rfl⟩ (.cons ⟨_, _, hempty, writesText_encode "&=", rfl⟩
    (.cons ⟨_, _, hsame, hempty, rfl⟩ .nil)), by decide +kernel⟩

/-- A form with the line as its body. -/
def umlautForm : Request where
  method := .post
  path := "/"
  query := none
  version := 1
  fields := ⟨[("content-type", "application/x-www-form-urlencoded; charset=utf-8")]⟩
  body := Utf8.encode umlautLine

/-- The line is read alike behind a path and in a body. -/
theorem umlauts_are_read :
    ∃ form, umlautForm.form = .ok form ∧
      form.values "ü" = ["a ✓", ""] ∧ form.values "" = ["&="] ∧
      (Request.of .get ("/ü" ++ "?" ++ umlautLine) 1 .empty []).queryParams "ü" = ["a ✓", ""] := by
  have hpath : '?' ∉ "/ü".toList := by decide
  have htype : umlautForm.contentType? =
      some ⟨"application", "x-www-form-urlencoded", [("charset", "utf-8")]⟩ := by decide +kernel
  have hbody : umlautForm.body = Utf8.encode umlautLine := rfl
  obtain ⟨-, form, hform, -, hsame, -, hwritten⟩ :=
    query_agrees_with_form .get 1 .empty [] hpath htype (by decide) hbody
  have hvalues := hwritten _ writesLine_umlaut
  refine ⟨form, hform, (hvalues "ü").trans (by decide), (hvalues "").trans (by decide), ?_⟩
  exact (hsame "ü").trans ((hvalues "ü").trans (by decide))

end Request

end HttpDispatch
