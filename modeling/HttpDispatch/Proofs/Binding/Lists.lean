import Mathlib.Data.List.Forall2
import HttpDispatch.Proofs.Binding.Outcome
import HttpDispatch.Proofs.Text.Elements

/-!
# Lists of values

An argument that is a list is made from the elements of all texts that are given for it: from their
stretches between commas, but for the blank ones. How the elements were grouped into texts does not
show, and the first element that is no value is what the texts are refused for. That is why a
header, whose values are cut into elements before, gives a list the same argument as a query.

* `mapM_eq_ok_iff`, `mapM_eq_error_iff`: what a list of computations comes to;
* `stretches`: the stretches of texts between commas;
* `ParamType.convert_list_eq_ok_iff`, `ParamType.convert_list_eq_error_iff`: what texts denote as a
  list, and what they are refused for;
* `run_header_list`, `run_query_list`: lists from headers and from queries;
* `lists_see_elements`: how a list depends on the texts, and where it does not.
-/

namespace HttpDispatch

variable {σ : Type}

/-! ### Lists of computations -/

section Computations

variable {ε α β : Type} {f : α → Except ε β} {l : List α} {out : List β} {e : ε}

theorem mapM_eq_ok_iff : l.mapM f = .ok out ↔ List.Forall₂ (fun a b => f a = .ok b) l out := by
  induction l generalizing out with
  | nil =>
    rw [List.forall₂_nil_left_iff]
    exact ⟨fun h => (Except.ok.inj h).symm, fun h => h ▸ rfl⟩
  | cons a l ih =>
    rw [List.mapM_cons, List.forall₂_cons_left_iff]
    constructor
    · intro h
      obtain ⟨b, hb, h⟩ := bind_eq_ok_iff.mp h
      obtain ⟨bs, hbs, h⟩ := bind_eq_ok_iff.mp h
      exact ⟨b, bs, hb, ih.mp hbs, (Except.ok.inj h).symm⟩
    · rintro ⟨b, bs, hb, hbs, rfl⟩
      rw [hb, ih.mpr hbs]
      rfl

/-- **The first computation that fails** is what a list of computations fails with. -/
theorem mapM_eq_error_iff : l.mapM f = .error e ↔
    ∃ before a after, l = before ++ a :: after ∧ (∀ x ∈ before, ∃ b, f x = .ok b) ∧
      f a = .error e := by
  induction l with
  | nil => simp [pure, Except.pure]
  | cons a l ih =>
    rw [List.mapM_cons]
    cases ha : f a with
    | error e' =>
      constructor
      · intro h
        obtain rfl := Except.error.inj h
        exact ⟨[], a, l, rfl, fun x hx => absurd hx List.not_mem_nil, ha⟩
      · rintro ⟨before, x, after, hl, hbefore, hx⟩
        rcases List.cons_eq_append_iff.mp hl with ⟨rfl, hcons⟩ | ⟨front, rfl, -⟩
        · obtain ⟨rfl, -⟩ := List.cons.inj hcons
          rw [ha] at hx
          exact congrArg _ (Except.error.inj hx)
        · obtain ⟨b, hb⟩ := hbefore a List.mem_cons_self
          rw [ha] at hb
          cases hb
    | ok b =>
      have hrest : (Except.ok b >>= fun b => l.mapM f >>= fun bs => pure (b :: bs)) = .error e ↔
          l.mapM f = .error e := by
        cases l.mapM f <;> simp [bind, Except.bind, pure, Except.pure]
      rw [hrest, ih]
      constructor
      · rintro ⟨before, x, after, rfl, hbefore, hx⟩
        refine ⟨a :: before, x, after, rfl, fun y hy => ?_, hx⟩
        rcases List.mem_cons.mp hy with rfl | hy
        · exact ⟨b, ha⟩
        · exact hbefore y hy
      · rintro ⟨before, x, after, hl, hbefore, hx⟩
        rcases List.cons_eq_append_iff.mp hl with ⟨rfl, hcons⟩ | ⟨front, rfl, hfront⟩
        · obtain ⟨rfl, -⟩ := List.cons.inj hcons
          rw [ha] at hx
          cases hx
        · exact ⟨front, x, after, hfront, fun y hy => hbefore y (List.mem_cons_of_mem _ hy), hx⟩

end Computations

/-! ### Stretches and elements -/

/-- **The stretches of texts between commas**, as they are written. -/
def stretches (values : List String) : List String := values.flatMap (Text.split ',')

theorem flatMap_elements_eq (values : List String) : values.flatMap Text.elements =
    ((stretches values).filter fun e => Text.trim e != "").map Text.trim := by
  rw [stretches, List.filter_flatMap, List.map_flatMap]
  exact List.flatMap_congr fun v _ => Text.elements_eq v

theorem flatMap_elements_ne_nil {values : List String}
    (h : ∃ e ∈ stretches values, Text.trim e ≠ "") : values.flatMap Text.elements ≠ [] := by
  obtain ⟨e, he, hne⟩ := h
  rw [flatMap_elements_eq]
  exact List.ne_nil_of_mem (List.mem_map_of_mem (List.mem_filter.mpr ⟨he, by simpa using hne⟩))

namespace ParamType

variable {t : ScalarType} {values xs ys : List String} {a : Arg} {reason : String}

theorem convert_list (t : ScalarType) (values : List String) :
    (list t : ParamType σ).convert values =
      ((values.flatMap Text.elements).mapM t.convert).map (listOf t) := rfl

/-- **What texts denote as a list**: each stretch that is not blank is a value, in order. -/
theorem convert_list_eq_ok_iff : (list t : ParamType σ).convert values = .ok a ↔
    ∃ items, List.Forall₂ (fun e v => t.convert (Text.trim e) = .ok v)
      ((stretches values).filter fun e => Text.trim e != "") items ∧ a = listOf t items := by
  have helements : ∀ items, (values.flatMap Text.elements).mapM t.convert = .ok items ↔
      List.Forall₂ (fun e v => t.convert (Text.trim e) = .ok v)
        ((stretches values).filter fun e => Text.trim e != "") items := by
    intro items
    rw [mapM_eq_ok_iff, flatMap_elements_eq, List.forall₂_map_left_iff]
  constructor
  · intro h
    obtain ⟨items, hitems, ha⟩ := map_eq_ok_iff.mp h
    exact ⟨items, (helements items).mp hitems, ha.symm⟩
  · rintro ⟨items, hitems, rfl⟩
    rw [convert_list, (helements items).mpr hitems]
    rfl

/-- **What texts are refused for as a list**: the first stretch that is neither blank nor a
value. -/
theorem convert_list_eq_error_iff : (list t : ParamType σ).convert values = .error reason ↔
    ∃ before e after, stretches values = before ++ e :: after ∧
      (∀ b ∈ before, Text.trim b = "" ∨ ∃ v, t.convert (Text.trim b) = .ok v) ∧
      Text.trim e ≠ "" ∧ t.convert (Text.trim e) = .error reason := by
  have hconvert : (list t : ParamType σ).convert values = .error reason ↔
      (values.flatMap Text.elements).mapM t.convert = .error reason := by
    rw [convert_list]
    cases (values.flatMap Text.elements).mapM t.convert <;> simp [Except.map]
  rw [hconvert, mapM_eq_error_iff, flatMap_elements_eq]
  constructor
  · rintro ⟨before, x, after, hsplit, hbefore, hx⟩
    obtain ⟨kept, rest, hkept, rfl, hrest⟩ := List.map_eq_append_iff.mp hsplit
    obtain ⟨e, later, rfl, rfl, -⟩ := List.map_eq_cons_iff.mp hrest
    obtain ⟨front, back, hstretches, hfront, hback⟩ := List.filter_eq_append_iff.mp hkept
    obtain ⟨blanks, tail, rfl, hblanks, he, -⟩ := List.filter_eq_cons_iff.mp hback
    refine ⟨front ++ blanks, e, tail, by rw [hstretches, List.append_assoc], fun b hb => ?_,
      by simpa using he, hx⟩
    by_cases hblank : Text.trim b = ""
    · exact .inl hblank
    · right
      rcases List.mem_append.mp hb with hb | hb
      · have hmem : b ∈ kept := hfront ▸ List.mem_filter.mpr ⟨hb, by simpa using hblank⟩
        exact hbefore _ (List.mem_map_of_mem hmem)
      · exact absurd hblank (by simpa using hblanks b hb)
  · rintro ⟨before, e, after, hsplit, hbefore, he, hreason⟩
    refine ⟨(before.filter fun e => Text.trim e != "").map Text.trim, Text.trim e,
      (after.filter fun e => Text.trim e != "").map Text.trim, ?_, fun x hx => ?_, hreason⟩
    · rw [hsplit, List.filter_append, List.filter_cons_of_pos (by simpa using he), List.map_append,
        List.map_cons]
    · obtain ⟨b, hb, rfl⟩ := List.mem_map.mp hx
      obtain ⟨hmem, hkept⟩ := List.mem_filter.mp hb
      exact (hbefore b hmem).resolve_left (by simpa using hkept)

theorem convert_list_congr (h : xs.flatMap Text.elements = ys.flatMap Text.elements) :
    (list t : ParamType σ).convert xs = (list t : ParamType σ).convert ys := by
  rw [convert_list, convert_list, h]

theorem listOf_injective (t : ScalarType) : Function.Injective (listOf t) := by
  intro u v h
  have hmap : u.map Arg.scalar = v.map Arg.scalar := by injection h
  exact List.map_injective_iff.mpr (fun x y hxy => by injection hxy) hmap

/-- **Texts one after the other** denote the lists of both, one after the other. -/
theorem convert_list_append_eq_ok_iff : (list t : ParamType σ).convert (xs ++ ys) = .ok a ↔
    ∃ u v, (list t : ParamType σ).convert xs = .ok (listOf t u) ∧
      (list t : ParamType σ).convert ys = .ok (listOf t v) ∧ a = listOf t (u ++ v) := by
  constructor
  · intro h
    obtain ⟨items, hitems, rfl⟩ := map_eq_ok_iff.mp h
    rw [List.flatMap_append, List.mapM_append] at hitems
    obtain ⟨u, hu, hitems⟩ := bind_eq_ok_iff.mp hitems
    obtain ⟨v, hv, hitems⟩ := bind_eq_ok_iff.mp hitems
    obtain rfl := Except.ok.inj hitems
    exact ⟨u, v, by rw [convert_list, hu]; rfl, by rw [convert_list, hv]; rfl, rfl⟩
  · rintro ⟨u, v, hu, hv, rfl⟩
    obtain ⟨u', hu', heq⟩ := map_eq_ok_iff.mp hu
    obtain ⟨v', hv', heq'⟩ := map_eq_ok_iff.mp hv
    obtain rfl := listOf_injective t heq
    obtain rfl := listOf_injective t heq'
    rw [convert_list, List.flatMap_append, List.mapM_append, hu', hv']
    rfl

end ParamType

/-! ### Headers and queries -/

/-- **A resolver that a factory makes** for a parameter that it supports. -/
def Factory.Makes (factory : Factory σ) (p : Param σ) (f : Resolver σ) : Prop :=
  factory.supports p = true ∧ ∃ codecs app app', factory.create p codecs app = (.ok f, app')

section Named

variable {t : ScalarType} {p : Param σ} {f : Resolver σ} {r : Request}

/-- **A list from a query** is made from the values of the query. -/
theorem run_query_list (htype : p.type = .list t) (hmade : (namedFactory .query).Makes p f)
    (hne : r.queryParams p.name ≠ []) (s : Scene σ) : (f r).run.run s =
      (some (((.list t : ParamType σ).convert (r.queryParams p.name)).mapError fun reason =>
        .badRequest s!"failed to convert value of '{p.name}': {reason}"), s) := by
  obtain ⟨-, codecs, app, app', hcreate⟩ := hmade
  obtain ⟨fallback, hfallback, rfl⟩ := ParamOf.exists_of_create_named hcreate
  have hvalues : valuesIn .query p.type.isList fallback.name r s.notes.pathVars =
      .ok (r.queryParams p.name) := by
    rw [ParamOf.name_ofParam hfallback]
    rfl
  rw [ParamOf.run_resolveNamed, hvalues]
  show (some (convertOr p.type fallback _), s) = _
  rw [ParamOf.convertOr_of_ne_nil hne, ParamOf.name_ofParam hfallback, htype]

/-- **A list from headers** is made from the values of the headers, though their elements have been
cut apart before. -/
theorem run_header_list (htype : p.type = .list t) (hmade : (namedFactory .header).Makes p f)
    (hne : (r.fields.getAll p.name).flatMap Text.elements ≠ []) (s : Scene σ) : (f r).run.run s =
      (some (((.list t : ParamType σ).convert (r.fields.getAll p.name)).mapError fun reason =>
        .badRequest s!"failed to convert value of '{p.name}': {reason}"), s) := by
  obtain ⟨-, codecs, app, app', hcreate⟩ := hmade
  obtain ⟨fallback, hfallback, rfl⟩ := ParamOf.exists_of_create_named hcreate
  have hvalues : valuesIn .header p.type.isList fallback.name r s.notes.pathVars =
      .ok ((r.fields.getAll p.name).flatMap Text.elements) := by
    rw [ParamOf.name_ofParam hfallback, htype]
    rfl
  have helements :
      (.list t : ParamType σ).convert ((r.fields.getAll p.name).flatMap Text.elements) =
        (.list t : ParamType σ).convert (r.fields.getAll p.name) :=
    ParamType.convert_list_congr (Text.flatMap_elements _)
  rw [ParamOf.run_resolveNamed, hvalues]
  show (some (convertOr p.type fallback _), s) = _
  rw [ParamOf.convertOr_of_ne_nil hne, ParamOf.name_ofParam hfallback, htype, helements]

end Named

/-- **A list sees elements, not how they were grouped.**

* Texts denote the same list as one text that joins them with commas;
* texts one after the other denote a list just if each part does: the lists of the parts, one after
  the other;
* blank stretches do not matter, wherever they stand: the list has a value for each of the others,
  in order;
* texts are refused for the first stretch that is neither blank nor a value, and only for that;
* where some element is not blank, headers give a list the same as a query with the same values,
  or refuse them for the same reason. -/
theorem lists_see_elements (t : ScalarType) :
    (∀ values : List String, (.list t : ParamType σ).convert values =
      (.list t : ParamType σ).convert [",".intercalate values]) ∧
    (∀ (xs ys : List String) (a : Arg), (.list t : ParamType σ).convert (xs ++ ys) = .ok a ↔
      ∃ u v, (.list t : ParamType σ).convert xs = .ok (ParamType.listOf t u) ∧
        (.list t : ParamType σ).convert ys = .ok (ParamType.listOf t v) ∧
        a = ParamType.listOf t (u ++ v)) ∧
    (∀ xs ys : List String, ((stretches xs).filter fun e => Text.trim e != "") =
        ((stretches ys).filter fun e => Text.trim e != "") →
      (.list t : ParamType σ).convert xs = (.list t : ParamType σ).convert ys) ∧
    (∀ (values : List String) (a : Arg), (.list t : ParamType σ).convert values = .ok a ↔
      ∃ items, List.Forall₂ (fun e v => t.convert (Text.trim e) = .ok v)
        ((stretches values).filter fun e => Text.trim e != "") items ∧
        a = ParamType.listOf t items) ∧
    (∀ (values : List String) (reason : String),
      (.list t : ParamType σ).convert values = .error reason ↔
        ∃ before e after, stretches values = before ++ e :: after ∧
          (∀ b ∈ before, Text.trim b = "" ∨ ∃ v, t.convert (Text.trim b) = .ok v) ∧
          Text.trim e ≠ "" ∧ t.convert (Text.trim e) = .error reason) ∧
    ∀ (p q : Param σ) (f g : Resolver σ), p.type = .list t → q.type = .list t → p.name = q.name →
      (namedFactory .header).Makes p f → (namedFactory .query).Makes q g →
      ∀ r r' : Request, r.fields.getAll p.name = r'.queryParams q.name →
        (∃ e ∈ stretches (r'.queryParams q.name), Text.trim e ≠ "") →
        ∃ x, x = (((.list t : ParamType σ).convert (r'.queryParams q.name)).mapError fun reason =>
            .badRequest s!"failed to convert value of '{q.name}': {reason}") ∧
          (∀ s, (f r).run.run s = (some x, s)) ∧ ∀ s, (g r').run.run s = (some x, s) := by
  refine ⟨fun values => ?_, fun xs ys a => ParamType.convert_list_append_eq_ok_iff,
    fun xs ys hsame => ?_, fun values a => ParamType.convert_list_eq_ok_iff,
    fun values reason => ParamType.convert_list_eq_error_iff, ?_⟩
  · refine ParamType.convert_list_congr ?_
    rw [List.flatMap_singleton, Text.elements_intercalate]
  · refine ParamType.convert_list_congr ?_
    rw [flatMap_elements_eq, flatMap_elements_eq, hsame]
  · intro p q f g hp hq hname hf hg r r' hvalues hsome
    have helements := flatMap_elements_ne_nil hsome
    have hne : r'.queryParams q.name ≠ [] := by
      intro hnil
      rw [hnil] at helements
      exact helements rfl
    refine ⟨_, rfl, fun s => ?_, run_query_list hq hg hne⟩
    rw [← hvalues] at helements ⊢
    rw [run_header_list hp hf helements, hname]

/-- A parameter for identifiers. -/
def idsParam (source : Source) : Param Unit := .of "ids" source (.list (.whole .u32))

/-- Three identifiers in headers. -/
def headerIds : Request := ⟨.get, "/", none, 1, ⟨[("Ids", "1, 2"), ("IDS", " ,3")]⟩, []⟩

/-- The same texts in a query. -/
def queryIds : Request := ⟨.get, "/", some "ids=1,+2&x=&ids=+,3", 1, ⟨[]⟩, []⟩

/-- They are the same list. -/
theorem three_ids_are_seen :
    headerIds.fields.getAll "ids" = queryIds.queryParams "ids" ∧
    ∃ f g, (namedFactory .header).Makes (idsParam .header) f ∧
      (namedFactory .query).Makes (idsParam .query) g ∧
      ∀ s, (f headerIds).run.run s = (g queryIds).run.run s ∧ (f headerIds).run.run s =
        (some (.ok (.list "u32" [.scalar (.whole .u32 1), .scalar (.whole .u32 2),
          .scalar (.whole .u32 3)])), s) := by
  have hquery : queryIds.queryParams "ids" = ["1, 2", " ,3"] := by decide +kernel
  have hheader : headerIds.fields.getAll "ids" = queryIds.queryParams "ids" := by
    rw [hquery]
    decide +kernel
  refine ⟨hheader, _, _, ⟨rfl, ⟨[], none⟩, (), (), rfl⟩, ⟨rfl, ⟨[], none⟩, (), (), rfl⟩,
    fun s => ?_⟩
  obtain ⟨x, hx, hf, hg⟩ := (lists_see_elements (.whole .u32)).2.2.2.2.2 (idsParam .header)
    (idsParam .query) _ _ rfl rfl rfl ⟨rfl, ⟨[], none⟩, (), (), rfl⟩
    ⟨rfl, ⟨[], none⟩, (), (), rfl⟩ headerIds queryIds hheader
    ⟨"1", by rw [show (idsParam .query).name = "ids" from rfl, hquery]; decide +kernel⟩
  rw [hf s, hg s, hx]
  refine ⟨rfl, ?_⟩
  rw [show (idsParam .query).name = "ids" from rfl, hquery]
  rfl

end HttpDispatch
