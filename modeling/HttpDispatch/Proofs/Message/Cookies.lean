import Mathlib.Data.List.Basic
import HttpDispatch.Message.Request
import HttpDispatch.Proofs.Message.Fields
import HttpDispatch.Proofs.Text.Split

/-!
# Cookies as they are sent

A client sends pairs of a name and a value, each as an entry in a `Cookie` field, with or without
quotes around the value. A field may have several entries, with `; ` between them, and there may be
several fields. Entries that name no cookie may stand among the others. However the entries are
grouped, the cookies of the request are the pairs in their order, and a name has the value of the
first pair of that name.

* `IsCookie`, `WritesCookie`, `NamesNoCookie`: the pairs that can be sent, how one is written, and
  what else may be there;
* `SendsCookies`: entries that send pairs;
* `Request.cookiesIn_cookieLine`: the entries of one field;
* `Request.Reads`: what a client that has sent pairs may expect;
* `Request.cookies_read_back`: cookies are read back, from fields of any grouping.
-/

namespace HttpDispatch

/-! ### How cookies are sent -/

/-- A pair that can be sent: nothing in it separates, the name is not empty, and there is nothing
around name and value that is stripped off. -/
structure IsCookie (p : String × String) : Prop where
  nonempty : p.1 ≠ ""
  equals : '=' ∉ p.1.toList
  name : ';' ∉ p.1.toList
  value : ';' ∉ p.2.toList
  nameEnds : Text.EndsWithout Text.isBlank p.1
  valueEnds : Text.EndsWithout Text.isBlank p.2
  unquoted : Text.EndsWithout (· == '"') p.2

instance (p : String × String) : Decidable (IsCookie p) :=
  decidable_of_iff (p.1 ≠ "" ∧ '=' ∉ p.1.toList ∧ ';' ∉ p.1.toList ∧ ';' ∉ p.2.toList ∧
      Text.EndsWithout Text.isBlank p.1 ∧ Text.EndsWithout Text.isBlank p.2 ∧
      Text.EndsWithout (· == '"') p.2)
    ⟨fun h => ⟨h.1, h.2.1, h.2.2.1, h.2.2.2.1, h.2.2.2.2.1, h.2.2.2.2.2.1, h.2.2.2.2.2.2⟩,
      fun h => ⟨h.1, h.2, h.3, h.4, h.5, h.6, h.7⟩⟩

/-- **A pair as an entry**, with or without quotes around its value. -/
inductive WritesCookie (p : String × String) : String → Prop
  | plain : WritesCookie p (p.1 ++ "=" ++ p.2)
  | quoted : WritesCookie p (p.1 ++ "=" ++ ("\"" ++ p.2 ++ "\""))

/-- **An entry that names no cookie**: it has no `=`, or nothing but blanks in front of the first
one. -/
inductive NamesNoCookie (entry : String) : Prop
  | noValue (h : '=' ∉ entry.toList)
  | noName {name value : String} (h : entry = name ++ "=" ++ value)
    (blank : ∀ c ∈ name.toList, Text.isBlank c)

/-- **Entries that send pairs**: the pairs in their order, with any entries among them that name no
cookie. -/
inductive SendsCookies : List (String × String) → List String → Prop
  | nil : SendsCookies [] []
  | pair {p : String × String} {entry : String} {pairs : List (String × String)}
    {entries : List String} (cookie : IsCookie p) (written : WritesCookie p entry)
    (others : SendsCookies pairs entries) : SendsCookies (p :: pairs) (entry :: entries)
  | other {entry : String} {pairs : List (String × String)} {entries : List String}
    (semicolon : ';' ∉ entry.toList) (none : NamesNoCookie entry)
    (others : SendsCookies pairs entries) : SendsCookies pairs (entry :: entries)

/-- The text of entries in one field. -/
def cookieLine (entries : List String) : String := "; ".intercalate entries

@[simp] theorem cookieLine_singleton (entry : String) : cookieLine [entry] = entry :=
  String.intercalate_singleton

/-- The value is that of the first pair of the name. -/
def IsFirstNamed (pairs : List (String × String)) (name value : String) : Prop :=
  ∃ before after, pairs = before ++ (name, value) :: after ∧ ∀ p ∈ before, p.1 ≠ name

theorem SendsCookies.append {pairs more : List (String × String)} {entries others : List String}
    (h : SendsCookies pairs entries) (k : SendsCookies more others) :
    SendsCookies (pairs ++ more) (entries ++ others) := by
  induction h with
  | nil => exact k
  | pair cookie written _ ih => exact .pair cookie written ih
  | other semicolon none _ ih => exact .other semicolon none ih

theorem sendsCookies_plain {pairs : List (String × String)} (h : ∀ p ∈ pairs, IsCookie p) :
    SendsCookies pairs (pairs.map fun p => p.1 ++ "=" ++ p.2) := by
  induction pairs with
  | nil => exact .nil
  | cons p pairs ih =>
    rw [List.forall_mem_cons] at h
    exact .pair h.1 .plain (ih h.2)

namespace Request

variable {r : Request} {p : String × String} {entry : String} {pairs : List (String × String)}
  {entries : List String}

/-! ### One entry -/

theorem cookieOf?_space (l : List Char) :
    cookieOf? (String.ofList (' ' :: l)) = cookieOf? (String.ofList l) := by
  have hcut : Text.cutAt '=' (' ' :: l) = (Text.cutAt '=' l).map fun q => (' ' :: q.1, q.2) := rfl
  rw [cookieOf?, cookieOf?, Text.splitOnce, Text.splitOnce, String.toList_ofList,
    String.toList_ofList, hcut]
  cases Text.cutAt '=' l with
  | none => rfl
  | some q => simp only [Option.map_some, Option.bind_some, Text.trim_space]

theorem cookieOf?_of_name {name value : String} (h : '=' ∉ name.toList) :
    cookieOf? (name ++ "=" ++ value) =
      if Text.trim name = "" then none
      else some (Text.trim name, Text.unquote (Text.trim value)) := by
  have hchars : (name ++ "=" ++ value).toList = name.toList ++ '=' :: value.toList := by simp
  rw [cookieOf?, Text.splitOnce, hchars, Text.cutAt_append h, Option.map_some, Option.bind_some,
    String.ofList_toList, String.ofList_toList]

/-- **An entry is read as the pair** that was written. -/
theorem cookieOf?_of_writes (h : IsCookie p) (k : WritesCookie p entry) :
    cookieOf? entry = some p := by
  have hname : Text.trim p.1 = p.1 := Text.trim_eq_self_iff.mpr h.nameEnds
  cases k with
  | plain =>
    rw [cookieOf?_of_name h.equals, hname, if_neg h.nonempty,
      Text.trim_eq_self_iff.mpr h.valueEnds, Text.unquote_eq_self_iff.mpr h.unquoted]
  | quoted =>
    have hquoted : "\"" ++ p.2 ++ "\"" = String.ofList ('"' :: p.2.toList ++ ['"']) := by
      rw [← String.toList_inj]
      simp
    rw [cookieOf?_of_name h.equals, hname, if_neg h.nonempty, hquoted,
      Text.unquote_trim_quoted h.unquoted]

theorem cookieOf?_of_namesNoCookie (h : NamesNoCookie entry) : cookieOf? entry = none := by
  cases h with
  | noValue h => rw [cookieOf?, Text.splitOnce, Text.cutAt_eq_none h]; rfl
  | @noName name value h blank =>
    have hequals : '=' ∉ name.toList := by
      intro hmem
      exact absurd (blank _ hmem) (by decide)
    rw [h, cookieOf?_of_name hequals, if_pos (Text.trim_eq_empty blank)]

/-- **The entries that send pairs** are read as these pairs. -/
theorem filterMap_cookieOf? (h : SendsCookies pairs entries) :
    entries.filterMap cookieOf? = pairs := by
  induction h with
  | nil => rfl
  | pair cookie written _ ih =>
    rw [List.filterMap_cons_some (cookieOf?_of_writes cookie written), ih]
  | other _ none _ ih => rw [List.filterMap_cons_none (cookieOf?_of_namesNoCookie none), ih]

theorem WritesCookie.semicolon (h : IsCookie p) (k : WritesCookie p entry) :
    ';' ∉ entry.toList := by
  cases k with
  | plain => simp [h.name, h.value]
  | quoted => simp [h.name, h.value]

theorem semicolon_of_sends (h : SendsCookies pairs entries) : ∀ e ∈ entries, ';' ∉ e.toList := by
  induction h with
  | nil => exact fun e he => by cases he
  | pair cookie written _ ih =>
    exact List.forall_mem_cons.mpr ⟨WritesCookie.semicolon cookie written, ih⟩
  | other semicolon _ _ ih => exact List.forall_mem_cons.mpr ⟨semicolon, ih⟩

/-! ### One field -/

/-- The cookies in the value of one field. -/
def cookiesIn (line : List Char) : List (String × String) :=
  ((Text.pieces ';' line).map String.ofList).filterMap cookieOf?

theorem cookies_eq (r : Request) :
    r.cookies = (r.fields.getAll "cookie").flatMap fun line => cookiesIn line.toList := by
  rw [cookies, List.filterMap_flatMap]
  rfl

@[simp] theorem cookiesIn_space (l : List Char) : cookiesIn (' ' :: l) = cookiesIn l := by
  have hblank : ' ' ≠ ';' := by decide
  obtain ⟨p, ps, hl, hspace⟩ := Text.exists_pieces_cons hblank l
  rw [cookiesIn, cookiesIn, hl, hspace, List.map_cons, List.map_cons, List.filterMap_cons,
    List.filterMap_cons, cookieOf?_space]

/-- **The entries of a field are read one by one.** -/
theorem cookiesIn_cookieLine (h : ∀ e ∈ entries, ';' ∉ e.toList) :
    cookiesIn (cookieLine entries).toList = entries.filterMap cookieOf? := by
  induction entries with
  | nil => rfl
  | cons e entries ih =>
    rw [List.forall_mem_cons] at h
    cases entries with
    | nil =>
      rw [cookieLine_singleton, cookiesIn, Text.pieces_of_not_mem h.1, List.map_singleton,
        String.ofList_toList]
    | cons f entries =>
      have hline : (cookieLine (e :: f :: entries)).toList =
          e.toList ++ ';' :: ' ' :: (cookieLine (f :: entries)).toList := by
        rw [cookieLine, String.intercalate_cons_cons, String.toList_append, String.toList_append,
          List.append_assoc]
        rfl
      have hfirst : cookiesIn (cookieLine (e :: f :: entries)).toList =
          [e].filterMap cookieOf? ++ cookiesIn (' ' :: (cookieLine (f :: entries)).toList) := by
        rw [cookiesIn, hline, Text.pieces_append h.1, List.map_cons, String.ofList_toList,
          ← List.singleton_append, List.filterMap_append]
        rfl
      rw [hfirst, cookiesIn_space, ih h.2, ← List.filterMap_append, List.singleton_append]

/-! ### All fields -/

variable {groups : List (List String)}

/-- **The cookies of a request** are the pairs that were sent. -/
theorem cookies_of_sends (h : SendsCookies pairs groups.flatten)
    (hlines : r.fields.getAll "cookie" = groups.map cookieLine) : r.cookies = pairs := by
  have hsemicolon := semicolon_of_sends h
  have hgroup : ∀ g ∈ groups, cookiesIn (cookieLine g).toList = g.filterMap cookieOf? :=
    fun g hg => cookiesIn_cookieLine fun e he => hsemicolon e (List.mem_flatten_of_mem hg he)
  calc r.cookies
      = groups.flatMap fun g => cookiesIn (cookieLine g).toList := by
        rw [cookies_eq, hlines, List.flatMap_map]
    _ = groups.flatMap fun g => g.filterMap cookieOf? := List.flatMap_congr hgroup
    _ = groups.flatten.filterMap cookieOf? := by rw [List.filterMap_flatten]; rfl
    _ = pairs := filterMap_cookieOf? h

/-- **What a client that has sent pairs may expect**: a name has the value of the first pair of that
name, and none if there is no pair of it. -/
structure Reads (r : Request) (pairs : List (String × String)) : Prop where
  value : ∀ name value, r.cookie? name = some value ↔ IsFirstNamed pairs name value
  absent : ∀ name, r.cookie? name = none ↔ ∀ p ∈ pairs, p.1 ≠ name

theorem reads_of_cookies (h : r.cookies = pairs) : r.Reads pairs where
  value name value := by
    rw [cookie?, h, List.lookup_eq_some_iff]
    simp only [IsFirstNamed, bne_iff_ne, ne_comm]
  absent name := by
    rw [cookie?, h, List.lookup_eq_none_iff]
    simp only [bne_iff_ne, ne_comm]

@[simp] theorem fields_of (method : Method) (target : String) (version : Nat) (fields : Fields)
    (body : Bytes) : (Request.of method target version fields body).fields = fields := by
  unfold Request.of
  split <;> rfl

@[simp] theorem getAll_addCookie (fields : Fields) (name value : String) :
    (fields.addCookie name value).getAll "cookie" =
      fields.getAll "cookie" ++ [name ++ "=" ++ value] := by
  have hsame : Text.sameName "Cookie" "cookie" := by decide
  simp [Fields.addCookie, hsame]

/-- Cookies that are added stand in fields of their own, behind all others. -/
theorem getAll_addCookies (fields : Fields) (more : List (String × String)) :
    (more.foldl (fun h p => h.addCookie p.1 p.2) fields).getAll "cookie" =
      fields.getAll "cookie" ++ more.map fun p => p.1 ++ "=" ++ p.2 := by
  induction more generalizing fields with
  | nil => simp
  | cons p more ih => simp [ih]

/-- **Cookies are read back as they were sent**, whatever the request is otherwise. Entries send
pairs, each with or without quotes around its value, with any entries among them that name no
cookie; they are grouped in any way, and each group is the value of one `Cookie` field. Then every
name has the value of the first pair of that name. Pairs that are added to the fields one by one
come behind them. -/
theorem cookies_read_back {fields : Fields} (sent : SendsCookies pairs groups.flatten)
    (lines : fields.getAll "cookie" = groups.map cookieLine) :
    (∀ r : Request, r.fields = fields → r.Reads pairs) ∧
    ∀ more : List (String × String), (∀ p ∈ more, IsCookie p) →
      ∀ method target version body, (Request.of method target version
        (more.foldl (fun h p => h.addCookie p.1 p.2) fields) body).Reads (pairs ++ more) := by
  refine ⟨fun r hr => reads_of_cookies (cookies_of_sends sent (hr ▸ lines)), ?_⟩
  intro more hmore method target version body
  let added := more.map fun p => [p.1 ++ "=" ++ p.2]
  have hsent : SendsCookies (pairs ++ more) (groups ++ added).flatten := by
    have hflat : added.flatten = more.map fun p => p.1 ++ "=" ++ p.2 := List.map_eq_flatMap.symm
    rw [List.flatten_append, hflat]
    exact sent.append (sendsCookies_plain hmore)
  refine reads_of_cookies (cookies_of_sends hsent ?_)
  have hadded : added.map cookieLine = more.map fun p => p.1 ++ "=" ++ p.2 := by
    rw [List.map_map]
    exact List.map_congr_left fun p _ => cookieLine_singleton _
  rw [fields_of, getAll_addCookies, lines, List.map_append, hadded]

/-- What a shop gets: two fields with cookies, entries that name none, and one name in both. -/
def shopFields : Fields :=
  ⟨[("Host", "shop"), ("cookie", "id=7; =x; junk; path=\"a=b\""), ("COOKIE", "id=8; ")]⟩

/-- The entries of the two fields. -/
def shopEntries : List (List String) :=
  [["id" ++ "=" ++ "7", "" ++ "=" ++ "x", "junk", "path" ++ "=" ++ ("\"" ++ "a=b" ++ "\"")],
    ["id" ++ "=" ++ "8", ""]]

/-- The shop reads the cookies, and two more that are added. -/
theorem shop_reads_back :
    let r := Request.of .get "/" 1 ((shopFields.addCookie "lang" "en").addCookie "path" "c") []
    r.cookie? "id" = some "7" ∧ r.cookie? "path" = some "a=b" ∧ r.cookie? "lang" = some "en" ∧
      r.cookie? "ID" = none := by
  have hsent : SendsCookies [("id", "7"), ("path", "a=b"), ("id", "8")] shopEntries.flatten :=
    .pair (by decide) .plain (.other (by decide) (.noName rfl (fun c hc => by cases hc))
      (.other (by decide) (.noValue (by decide)) (.pair (by decide) .quoted
        (.pair (by decide) .plain (.other (by decide) (.noValue (by decide)) .nil)))))
  have hlines : shopFields.getAll "cookie" = shopEntries.map cookieLine := by decide +kernel
  have hmore : ∀ p ∈ [("lang", "en"), ("path", "c")], IsCookie p := by decide
  obtain ⟨-, hreads⟩ := cookies_read_back hsent hlines
  obtain ⟨hvalue, habsent⟩ := hreads _ hmore .get "/" 1 []
  refine ⟨(hvalue _ _).mpr ⟨[], _, rfl, by decide⟩,
    (hvalue _ _).mpr ⟨[("id", "7")], _, rfl, by decide⟩,
    (hvalue _ _).mpr ⟨[("id", "7"), ("path", "a=b"), ("id", "8")], _, rfl, by decide⟩,
    (habsent _).mpr (by decide)⟩

end Request

end HttpDispatch
