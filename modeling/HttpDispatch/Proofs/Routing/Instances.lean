import Mathlib.Data.List.Nodup
import HttpDispatch.Proofs.Routing.Pieces
import HttpDispatch.Proofs.Text.Percent

/-!
# Instances of templates

A template stands for the paths that are made from it by putting a text for each capture and each
star, and any pieces for a star that catches all. Matching undoes this.

* `Template.filled`, `Template.assigned`: texts put for the open segments, as pieces of a path and
  as variables;
* `captureFront_eq_some_iff`: which pieces the segments match, and what is captured;
* `Template.capture_eq_some_iff`: which paths a template matches, and the variables;
* `Template.matching_inverts_instantiation`: the same for texts that are encoded in a path.
-/

namespace HttpDispatch

/-! ### Variables -/

theorem Variables.toList_insert_of_not_mem {v : Variables} {name : String}
    (h : name ∉ v.toList.map Prod.fst) (text : String) :
    (v.insert name text).toList = v.toList ++ [(name, text)] := by
  have hkept : v.toList.filter (fun p => p.1 != name) = v.toList := by
    rw [List.filter_eq_self]
    intro p hp
    rw [bne_iff_ne]
    rintro rfl
    exact h (List.mem_map_of_mem hp)
  rw [insert, hkept]

theorem Variables.toList_foldl_insert (l : List (String × String)) (v : Variables)
    (h : (v.toList.map Prod.fst ++ l.map Prod.fst).Nodup) :
    (l.foldl (fun v p => v.insert p.1 p.2) v).toList = v.toList ++ l := by
  induction l generalizing v with
  | nil => exact (List.append_nil _).symm
  | cons p l ih =>
    have hnew : p.1 ∉ v.toList.map Prod.fst := by
      intro hmem
      exact (List.disjoint_of_nodup_append h) hmem List.mem_cons_self
    have hinsert := toList_insert_of_not_mem hnew p.2
    rw [List.foldl_cons, ih, hinsert, List.append_assoc, List.singleton_append]
    rwa [hinsert, List.map_append, List.append_assoc]

/-- Texts under different names are all kept, in their order. -/
theorem Variables.ofList_eq {l : List (String × String)} (h : (l.map Prod.fst).Nodup) :
    ofList l = ⟨l⟩ :=
  congrArg Variables.mk (toList_foldl_insert l .empty h)

namespace Template

/-! ### Open segments -/

/-- The number of captures and stars. -/
def holes (segments : List Segment) : Nat := segments.countP fun s => !s.isLiteral

/-- The names of the captures. -/
def names : List Segment → List String
  | [] => []
  | .capture name :: rest => name :: names rest
  | _ :: rest => names rest

/-- The segments with texts put for captures and stars. -/
def filled : List Segment → List String → List String
  | [], _ => []
  | .literal text :: rest, values => text :: filled rest values
  | _ :: rest, value :: values => value :: filled rest values
  | _ :: _, [] => []

/-- The texts that are put for captures, under their names. -/
def assigned : List Segment → List String → List (String × String)
  | [], _ => []
  | .literal _ :: rest, values => assigned rest values
  | .capture name :: rest, value :: values => (name, value) :: assigned rest values
  | .any :: rest, _ :: values => assigned rest values
  | _ :: _, [] => []

theorem holes_cons_of_open {s : Segment} (hs : s.isLiteral = false) (segments : List Segment) :
    holes (s :: segments) = holes segments + 1 :=
  List.countP_cons_of_pos (by rw [hs]; rfl)

theorem exists_cons_of_open {s : Segment} {segments : List Segment} {values : List String}
    (hs : s.isLiteral = false) (h : values.length = holes (s :: segments)) :
    ∃ value rest, values = value :: rest ∧ rest.length = holes segments := by
  rw [holes_cons_of_open hs] at h
  obtain ⟨value, rest, rfl⟩ := List.exists_cons_of_length_eq_add_one h
  exact ⟨value, rest, rfl, Nat.succ.inj h⟩

/-- **The first piece** of filled segments is the first segment itself or the text put for it. -/
theorem exists_filled_cons {s : Segment} {segments : List Segment} {values : List String}
    (h : values.length = holes (s :: segments)) : ∃ piece rest,
      filled (s :: segments) values = piece :: filled segments rest ∧
        rest.length = holes segments ∧
        (s = .literal piece ∧ values = rest ∨ s.isLiteral = false ∧ values = piece :: rest) := by
  rcases s with text | name | _
  · exact ⟨text, values, rfl, h, .inl ⟨rfl, rfl⟩⟩
  all_goals
    obtain ⟨value, rest, rfl, hlen⟩ := exists_cons_of_open rfl h
    exact ⟨value, rest, rfl, hlen, .inr ⟨rfl, rfl⟩⟩

theorem map_fst_assigned {segments : List Segment} {values : List String}
    (h : values.length = holes segments) :
    (assigned segments values).map Prod.fst = names segments := by
  induction segments generalizing values with
  | nil => rfl
  | cons s segments ih =>
    cases s with
    | literal text => exact ih h
    | capture name =>
      obtain ⟨value, rest, rfl, hlen⟩ := exists_cons_of_open rfl h
      exact congrArg (name :: ·) (ih hlen)
    | any =>
      obtain ⟨value, rest, rfl, hlen⟩ := exists_cons_of_open rfl h
      exact ih hlen

/-- **What segments match**: pieces that are the segments with some texts put for captures and
stars, which are captured as they decode. -/
theorem captureFront_eq_some_iff {segments : List Segment} {ps rest : List String}
    {v w : Variables} : captureFront segments ps v = some (w, rest) ↔
      ∃ raw : List String, raw.length = holes segments ∧ ps = filled segments raw ++ rest ∧
        w = (assigned segments (raw.map Percent.decodeOrKeep)).foldl
          (fun v p => v.insert p.1 p.2) v := by
  induction segments generalizing ps v with
  | nil =>
    constructor
    · intro h
      cases h
      exact ⟨[], rfl, rfl, rfl⟩
    · rintro ⟨raw, -, rfl, rfl⟩
      rfl
  | cons s segments ih =>
    rcases s with text | name | _
    · have hstep : ∀ piece ps, captureFront (.literal text :: segments) (piece :: ps) v =
          some (w, rest) ↔ text = piece ∧ captureFront segments ps v = some (w, rest) := by
        intro piece ps
        by_cases h : text = piece <;> simp [captureFront, Segment.match?, h]
      constructor
      · intro h
        cases ps with
        | nil => cases h
        | cons piece ps =>
          obtain ⟨rfl, hrest⟩ := (hstep piece ps).mp h
          obtain ⟨raw, hlen, rfl, hw⟩ := ih.mp hrest
          exact ⟨raw, hlen, rfl, hw⟩
      · rintro ⟨raw, hlen, rfl, hw⟩
        exact (hstep _ _).mpr ⟨rfl, ih.mpr ⟨raw, hlen, rfl, hw⟩⟩
    -- a capture and a star both take one piece, which is the first of the texts
    all_goals
      constructor
      · intro h
        cases ps with
        | nil => cases h
        | cons piece ps =>
          obtain ⟨raw, hlen, rfl, hw⟩ := ih.mp (show captureFront segments ps _ = _ from h)
          exact ⟨piece :: raw, by rw [holes_cons_of_open rfl, ← hlen]; rfl, rfl, hw⟩
      · rintro ⟨raw, hlen, rfl, hw⟩
        obtain ⟨piece, rest, rfl, hrest⟩ := exists_cons_of_open rfl hlen
        exact ih.mpr ⟨rest, hrest, rfl, hw⟩

/-! ### Templates -/

/-- The variables of a template: what is assigned to its captures and, if it catches all, to the
rest of the path. -/
def variablesOf (segments : List Segment) (catchAll : Bool) (values : List String)
    (rest : String) : Variables :=
  ⟨assigned segments values ++ if catchAll then [(wildcard, rest)] else []⟩

/-- **Which pieces a template matches**: those of its segments with some texts put for captures and
stars, and any others behind them if it catches all. -/
theorem capturePieces_eq_some_iff {t : Template} {ps : List String} {v : Variables} :
    t.capturePieces ps = some v ↔
      ∃ raw rest : List String, raw.length = holes t.segments ∧
        (t.catchAll = false → rest = []) ∧ ps = filled t.segments raw ++ rest ∧
        v = .ofList (variablesOf t.segments t.catchAll (raw.map Percent.decodeOrKeep)
          (Percent.decodeOrKeep ("/".intercalate rest))).toList := by
  unfold capturePieces variablesOf Variables.ofList
  constructor
  · intro h
    obtain ⟨⟨w, rest⟩, hfront, hv⟩ := Option.bind_eq_some_iff.mp h
    obtain ⟨raw, hlen, rfl, rfl⟩ := captureFront_eq_some_iff.mp hfront
    refine ⟨raw, rest, hlen, ?_⟩
    rw [List.foldl_append]
    cases hcatch : t.catchAll with
    | true =>
      simp only [hcatch, if_true] at hv
      exact ⟨nofun, rfl, (Option.some.inj hv).symm⟩
    | false =>
      simp only [hcatch, Bool.false_eq_true, if_false] at hv
      split at hv
      · next hempty => exact ⟨fun _ => List.isEmpty_iff.mp hempty, rfl, (Option.some.inj hv).symm⟩
      · cases hv
  · rintro ⟨raw, rest, hlen, hrest, rfl, rfl⟩
    refine Option.bind_eq_some_iff.mpr ⟨_, captureFront_eq_some_iff.mpr ⟨raw, hlen, rfl, rfl⟩, ?_⟩
    rw [List.foldl_append]
    cases hcatch : t.catchAll with
    | true => rfl
    | false =>
      rw [hrest hcatch]
      rfl

/-- The names of the captures of a template differ, also from that of the rest of the path. -/
def HasDistinctNames (segments : List Segment) (catchAll : Bool) : Prop :=
  (names segments ++ if catchAll then [wildcard] else []).Nodup

instance (segments : List Segment) (catchAll : Bool) :
    Decidable (HasDistinctNames segments catchAll) :=
  inferInstanceAs (Decidable (List.Nodup _))

theorem ofList_variablesOf {segments : List Segment} {catchAll : Bool} {values : List String}
    (h : HasDistinctNames segments catchAll) (hlen : values.length = holes segments)
    (rest : String) : Variables.ofList (variablesOf segments catchAll values rest).toList =
      variablesOf segments catchAll values rest := by
  refine Variables.ofList_eq ?_
  rw [variablesOf, List.map_append, map_fst_assigned hlen]
  cases catchAll <;> exact h

/-! ### Paths -/

/-- The path is a template with texts put for captures and stars and, if it catches all, with
further pieces behind them; there may be more slashes than that takes. -/
structure IsInstance (segments : List Segment) (catchAll : Bool) (values rest : List String)
    (path : String) : Prop where
  length_eq : values.length = holes segments
  rest_eq_nil : catchAll = false → rest = []
  slashed : Slashed (filled segments values ++ rest) path.toList

theorem mem_filled_iff {segments : List Segment} {values : List String}
    (h : values.length = holes segments) {s : String} :
    s ∈ filled segments values ↔ s ∈ values ∨ .literal s ∈ segments := by
  induction segments generalizing values with
  | nil =>
    rw [List.length_eq_zero_iff.mp h]
    simp [filled]
  | cons segment segments ih =>
    obtain ⟨piece, rest, hfilled, hlen, hcase⟩ := exists_filled_cons h
    rw [hfilled, List.mem_cons, ih hlen, List.mem_cons]
    rcases hcase with ⟨rfl, rfl⟩ | ⟨hopen, rfl⟩
    · rw [Segment.literal.injEq]
      tauto
    · have hne : .literal s ≠ segment := by
        rintro rfl
        cases hopen
      rw [List.mem_cons]
      tauto

theorem isPiece_of_literal_mem {segments : List Segment} {catchAll : Bool} {text s : String}
    (h : IsWritten segments catchAll text) (hs : .literal s ∈ segments) : IsPiece s := by
  obtain ⟨ps, hps, hpiece, -, -⟩ := h
  rw [forall₂_isWritten_iff] at hps
  subst hps
  obtain ⟨p, hp, hread⟩ := List.mem_map.mp hs
  cases Segment.ofText_eq_iff.mp hread
  exact hpiece s hp

/-- **Which paths a template matches**: its instances, and the variables are what was put for the
open segments, as it decodes. -/
theorem capture_eq_some_iff {segments : List Segment} {catchAll : Bool} {text path : String}
    {v : Variables} (h : IsWritten segments catchAll text)
    (hnames : HasDistinctNames segments catchAll) : (ofText text).capture path = some v ↔
      ∃ raw rest : List String, IsInstance segments catchAll raw rest path ∧
        (∀ s ∈ raw ++ rest, IsPiece s) ∧
        v = variablesOf segments catchAll (raw.map Percent.decodeOrKeep)
          (Percent.decodeOrKeep ("/".intercalate rest)) := by
  have hliteral := fun s => isPiece_of_literal_mem (s := s) h
  obtain ⟨hsegments, hcatch⟩ := ofText_of_isWritten h
  generalize ofText text = t at hsegments hcatch ⊢
  subst hsegments hcatch
  have hkept : ∀ (raw : List String) (rest : String), raw.length = holes t.segments →
      Variables.ofList (variablesOf t.segments t.catchAll (raw.map Percent.decodeOrKeep) rest).toList =
        variablesOf t.segments t.catchAll (raw.map Percent.decodeOrKeep) rest :=
    fun raw rest hlen => ofList_variablesOf hnames ((List.length_map _).trans hlen) rest
  rw [capture, pieces_normal, capturePieces_eq_some_iff]
  constructor
  · rintro ⟨raw, rest, hlen, hrest, hpieces, rfl⟩
    rw [hkept raw _ hlen]
    obtain ⟨hslashed, hpiece⟩ := slashed_pieces path.toList
    rw [String.ofList_toList, hpieces] at hslashed hpiece
    refine ⟨raw, rest, ⟨hlen, hrest, hslashed⟩, fun s hs => hpiece s ?_, rfl⟩
    rw [List.mem_append, mem_filled_iff hlen]
    exact (List.mem_append.mp hs).imp_left .inl
  · rintro ⟨raw, rest, ⟨hlen, hrest, hslashed⟩, hpiece, rfl⟩
    refine ⟨raw, rest, hlen, hrest, ?_, (hkept raw _ hlen).symm⟩
    have hread := pieces_of_slashed hslashed fun s hs => by
      rw [List.mem_append, mem_filled_iff hlen] at hs
      rcases hs with (hs | hs) | hs
      · exact hpiece s (List.mem_append_left _ hs)
      · exact hliteral s hs
      · exact hpiece s (List.mem_append_right _ hs)
    rwa [String.ofList_toList] at hread

/-- **Matching inverts instantiation.** Every text is written as a template. If the names of the
template differ, then a path that is made from it with any encoded texts that are not empty gives
back these texts, the ones behind a catch-all with slashes between them, and nothing else; and every
path that it matches is made from it with raw pieces of the path, whose decodings are the
variables. -/
theorem matching_inverts_instantiation :
    (∀ text : String, ∃ segments catchAll, IsWritten segments catchAll text) ∧
    ∀ segments catchAll text, IsWritten segments catchAll text →
      HasDistinctNames segments catchAll →
      (∀ values rest path, (∀ s ∈ values ++ rest, s ≠ "") →
        IsInstance segments catchAll (values.map Percent.encode) (rest.map Percent.encode) path →
        (ofText text).capture path =
          some (variablesOf segments catchAll values ("/".intercalate rest))) ∧
      ∀ path v, (ofText text).capture path = some v →
        ∃ raw rest, IsInstance segments catchAll raw rest path ∧
          (∀ s ∈ raw ++ rest, IsPiece s) ∧
          v = variablesOf segments catchAll (raw.map Percent.decodeOrKeep)
            (Percent.decodeOrKeep ("/".intercalate rest)) := by
  refine ⟨fun text => ⟨_, _, isWritten_ofText text⟩, fun segments catchAll text h hnames =>
    ⟨fun values rest path hne hinst => ?_, fun path v => (capture_eq_some_iff h hnames).mp⟩⟩
  refine (capture_eq_some_iff h hnames).mpr ⟨_, _, hinst, fun s hs => ?_, ?_⟩
  · rw [← List.map_append] at hs
    obtain ⟨value, hvalue, rfl⟩ := List.mem_map.mp hs
    exact ⟨Percent.encode_ne_empty (hne value hvalue), Percent.slash_not_mem_encode value⟩
  · rw [Percent.map_decodeOrKeep_encode, Percent.decodeOrKeep_intercalate]

/-- A template with captures in both forms gives back two encoded texts and a tail. -/
theorem encoded_pieces_are_captured :
    (ofText "/users/:id/\x7btab\x7d/*").capture "//users//a%2Fb/%25/x%20y/%C3%A9/" =
      some ⟨[("id", "a/b"), ("tab", "%"), ("wildcard", "x y/é")]⟩ := by
  have hwritten : IsWritten [.literal "users", .capture "id", .capture "tab"] true
      "/users/:id/\x7btab\x7d/*" := by
    have h := isWritten_ofText "/users/:id/\x7btab\x7d/*"
    rwa [show (ofText "/users/:id/\x7btab\x7d/*").segments =
        [.literal "users", .capture "id", .capture "tab"] by decide +kernel,
      show (ofText "/users/:id/\x7btab\x7d/*").catchAll = true by decide +kernel] at h
  have hinstance : IsInstance [.literal "users", .capture "id", .capture "tab"] true
      (["a/b", "%"].map Percent.encode) (["x y", "é"].map Percent.encode)
      "//users//a%2Fb/%25/x%20y/%C3%A9/" := by
    refine ⟨rfl, nofun, ?_⟩
    have h := (slashed_pieces "//users//a%2Fb/%25/x%20y/%C3%A9/".toList).1
    rwa [show pieces (String.ofList "//users//a%2Fb/%25/x%20y/%C3%A9/".toList) =
      filled [.literal "users", .capture "id", .capture "tab"] (["a/b", "%"].map Percent.encode) ++
        ["x y", "é"].map Percent.encode by decide +kernel] at h
  exact (matching_inverts_instantiation.2 _ _ _ hwritten (by decide)).1 ["a/b", "%"] ["x y", "é"] _
    (by decide) hinstance

end Template

end HttpDispatch
