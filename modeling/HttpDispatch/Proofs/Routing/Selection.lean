import Mathlib.Data.List.Induction
import Mathlib.Data.List.Nodup
import HttpDispatch.Routing.Table

/-!
# The selected route

Which entry of a table is selected for a request, and what one more entry does to the selection.

* `Mapping.Precedes`, `Mapping.key`: the order of mappings and the numbers that decide it, and
  `rankBefore_iff`: it is that of their ranks;
* `select_concat_of_some`, `select_concat_of_none`: one more entry in a table;
* `IsBest`: the first of the best entries, and `select_eq_some_iff`: it is the one selected;
* `selection_is_stable`: how the selection depends on what is entered, and in which order.
-/

namespace HttpDispatch

/-! ### The order of mappings -/

/-- **What is more specific** comes first: what is less open, then what has more literals, then what
has fewer captures. -/
def Template.Precedes (a b : Template) : Prop :=
  a.openness < b.openness ∨ a.openness = b.openness ∧
    (b.literals < a.literals ∨ a.literals = b.literals ∧ a.captures < b.captures)

/-- Of mappings whose templates are equally specific, the one that mentions more media types comes
first, be they read or written. -/
def Mapping.Precedes (a b : Mapping) : Prop :=
  a.template.Precedes b.template ∨
    a.template.openness = b.template.openness ∧ a.template.literals = b.template.literals ∧
      a.template.captures = b.template.captures ∧
      b.consumes.length + b.produces.length < a.consumes.length + a.produces.length

/-- The numbers that decide the order of mappings. -/
def Mapping.key (m : Mapping) : Nat × Nat × Nat × Nat :=
  (m.template.openness, m.template.literals, m.template.captures,
    m.consumes.length + m.produces.length)

theorem Template.rankBefore_iff {a b : Template} : rankBefore a.rank b.rank ↔ a.Precedes b := by
  simp only [rankBefore, rank, Precedes, decide_eq_true_eq, List.cons_lt_cons_iff,
    List.not_lt_nil, and_false, or_false]
  omega

namespace Mapping

variable {a b c : Mapping}

theorem key_eq_iff : a.key = b.key ↔
    a.template.openness = b.template.openness ∧ a.template.literals = b.template.literals ∧
      a.template.captures = b.template.captures ∧
      a.consumes.length + a.produces.length = b.consumes.length + b.produces.length := by
  simp only [key, Prod.mk.injEq]

theorem rankBefore_iff : rankBefore a.rank b.rank ↔ a.Precedes b := by
  simp only [rankBefore, rank, mediaTypes, Template.rank, Precedes, Template.Precedes,
    decide_eq_true_eq, List.cons_append, List.nil_append, List.cons_lt_cons_iff, List.not_lt_nil,
    and_false, or_false]
  omega

theorem Precedes.trans (h : a.Precedes b) (k : b.Precedes c) : a.Precedes c := by
  simp only [Precedes, Template.Precedes] at *
  omega

theorem Precedes.key_ne (h : a.Precedes b) : a.key ≠ b.key := by
  rw [Ne, key_eq_iff]
  simp only [Precedes, Template.Precedes] at *
  omega

theorem Precedes.asymm (h : a.Precedes b) : ¬ b.Precedes a := by
  simp only [Precedes, Template.Precedes] at *
  omega

theorem precedes_of_not (h : ¬ a.Precedes b) : b.Precedes a ∨ b.key = a.key := by
  rw [key_eq_iff]
  simp only [Precedes, Template.Precedes] at *
  omega

theorem Precedes.of_key_eq (h : a.Precedes b) (k : b.key = c.key) : a.Precedes c := by
  rw [key_eq_iff] at k
  simp only [Precedes, Template.Precedes] at *
  omega

end Mapping

/-! ### One more entry -/

variable {ρ : Type} {mapping : ρ → Mapping} {r : Request} {table : List ρ} {e : ρ} {v : Variables}
  {s t : Selection ρ}

theorem candidates_append (table later : List ρ) (index : Nat) :
    candidates mapping r index (table ++ later) =
      candidates mapping r index table ++ candidates mapping r (index + table.length) later := by
  induction table generalizing index with
  | nil => rfl
  | cons e table ih =>
    have hindex : index + 1 + table.length = index + (e :: table).length := by
      rw [List.length_cons]; omega
    rw [List.cons_append, candidates, candidates, ih, hindex]
    cases (mapping e).capture r <;> rfl

theorem select_concat_of_none (h : (mapping e).capture r = none) :
    select mapping r (table ++ [e]) = select mapping r table := by
  have hnone : candidates mapping r (0 + table.length) [e] = [] := by rw [candidates, h]; rfl
  rw [select, candidates_append, hnone, List.append_nil]
  rfl

/-- **An entry that is for the request** is selected if nothing was or if it is strictly better. -/
theorem select_concat_of_some (h : (mapping e).capture r = some v) :
    select mapping r (table ++ [e]) =
      match select mapping r table with
      | none => some ⟨e, table.length, v⟩
      | some s =>
        if rankBefore (mapping e).rank (mapping s.entry).rank then some ⟨e, table.length, v⟩
        else some s := by
  have hone : candidates mapping r (0 + table.length) [e] = [⟨e, table.length, v⟩] := by
    rw [candidates, h, Nat.zero_add]
    rfl
  unfold select
  rw [candidates_append, hone]
  cases candidates mapping r 0 table with
  | nil => rfl
  | cons c rest =>
    simp only [List.cons_append, List.foldl_append, List.foldl_cons, List.foldl_nil,
      Selection.better]
    split <;> rfl

/-! ### The selected entry -/

/-- **The first of the best entries** for a request: it is for the request, and every other one that
is comes behind it, by its mapping or, if these have equal keys, by its place. -/
structure IsBest (mapping : ρ → Mapping) (r : Request) (table : List ρ) (s : Selection ρ) :
    Prop where
  entry : table[s.index]? = some s.entry
  pathVars : (mapping s.entry).capture r = some s.pathVars
  best : ∀ (j : Nat) (e : ρ), table[j]? = some e → ((mapping e).capture r).isSome →
    (mapping s.entry).Precedes (mapping e) ∨
      (mapping s.entry).key = (mapping e).key ∧ s.index ≤ j

theorem IsBest.mem (h : IsBest mapping r table s) : s.entry ∈ table :=
  List.mem_of_getElem? h.entry

theorem IsBest.unique (h : IsBest mapping r table s) (k : IsBest mapping r table t) : s = t := by
  have hst := h.best t.index t.entry k.entry (by rw [k.pathVars]; rfl)
  have hts := k.best s.index s.entry h.entry (by rw [h.pathVars]; rfl)
  -- neither mapping precedes the other, so both places are the least one
  have hindex : s.index = t.index := by
    rcases hst with hst | ⟨heq, hle⟩
    · rcases hts with hts | ⟨heq, -⟩
      · exact absurd hts hst.asymm
      · exact absurd heq.symm hst.key_ne
    · rcases hts with hts | ⟨-, hle'⟩
      · exact absurd heq.symm hts.key_ne
      · omega
  have hentry : s.entry = t.entry := by
    have hs := h.entry
    rw [hindex, k.entry] at hs
    exact (Option.some.inj hs).symm
  have hvars : s.pathVars = t.pathVars := by
    have hs := h.pathVars
    rw [hentry, k.pathVars] at hs
    exact (Option.some.inj hs).symm
  cases s
  cases t
  simp_all

theorem getElem?_concat_cases {j : Nat} {x : ρ} (h : (table ++ [e])[j]? = some x) :
    table[j]? = some x ∨ j = table.length ∧ x = e := by
  by_cases hj : j < table.length
  · rw [List.getElem?_append_left hj] at h
    exact .inl h
  · have hlt := (List.getElem?_eq_some_iff.mp h).1
    rw [List.length_append, List.length_singleton] at hlt
    obtain rfl : j = table.length := by omega
    rw [List.getElem?_concat_length] at h
    exact .inr ⟨rfl, (Option.some.inj h).symm⟩

/-- The best entry stays the best beside one that is not for the request or not better. -/
theorem IsBest.concat (h : IsBest mapping r table s)
    (he : ((mapping e).capture r).isSome → ¬ (mapping e).Precedes (mapping s.entry)) :
    IsBest mapping r (table ++ [e]) s where
  entry := by
    rw [List.getElem?_append_left (List.getElem?_eq_some_iff.mp h.entry).1]
    exact h.entry
  pathVars := h.pathVars
  best j x hx hsome := by
    rcases getElem?_concat_cases hx with hx | ⟨rfl, rfl⟩
    · exact h.best j x hx hsome
    · have hlt := (List.getElem?_eq_some_iff.mp h.entry).1
      rcases Mapping.precedes_of_not (he hsome) with hbefore | heq
      · exact .inl hbefore
      · exact .inr ⟨heq, Nat.le_of_lt hlt⟩

theorem isBest_concat_new (he : (mapping e).capture r = some v)
    (hbetter : ∀ x ∈ table, ((mapping x).capture r).isSome →
      (mapping e).Precedes (mapping x)) :
    IsBest mapping r (table ++ [e]) ⟨e, table.length, v⟩ where
  entry := List.getElem?_concat_length
  pathVars := he
  best j x hx hsome := by
    rcases getElem?_concat_cases hx with hx | ⟨rfl, rfl⟩
    · exact .inl (hbetter x (List.mem_of_getElem? hx) hsome)
    · exact .inr ⟨rfl, Nat.le_refl _⟩

/-- **What is selected is the best**, and nothing is selected only if no entry is for the request. -/
theorem isBest_select (mapping : ρ → Mapping) (r : Request) (table : List ρ) :
    match select mapping r table with
    | none => ∀ x ∈ table, (mapping x).capture r = none
    | some s => IsBest mapping r table s := by
  induction table using List.reverseRecOn with
  | nil => exact fun _ h => by cases h
  | append_singleton table e ih =>
    cases he : (mapping e).capture r with
    | none =>
      rw [select_concat_of_none he]
      cases hs : select mapping r table with
      | none =>
        rw [hs] at ih
        intro x hx
        rcases List.mem_append.mp hx with hx | hx
        · exact ih x hx
        · rw [List.mem_singleton.mp hx, he]
      | some s =>
        rw [hs] at ih
        exact ih.concat fun hsome => by rw [he] at hsome; cases hsome
    | some v =>
      rw [select_concat_of_some he]
      cases hs : select mapping r table with
      | none =>
        rw [hs] at ih
        exact isBest_concat_new he fun x hx hsome => by rw [ih x hx] at hsome; cases hsome
      | some s =>
        rw [hs] at ih
        dsimp only at ih ⊢
        by_cases hif : rankBefore (mapping e).rank (mapping s.entry).rank
        · have hbefore := Mapping.rankBefore_iff.mp hif
          rw [if_pos hif]
          refine isBest_concat_new he fun x hx hsome => ?_
          obtain ⟨j, hj⟩ := List.getElem?_of_mem hx
          rcases ih.best j x hj hsome with hlater | ⟨heq, -⟩
          · exact hbefore.trans hlater
          · exact hbefore.of_key_eq heq
        · rw [if_neg hif]
          exact ih.concat fun _ h => hif (Mapping.rankBefore_iff.mpr h)

theorem select_eq_none_iff :
    select mapping r table = none ↔ ∀ x ∈ table, (mapping x).capture r = none := by
  have hbest := isBest_select mapping r table
  constructor
  · intro h
    rw [h] at hbest
    exact hbest
  · intro h
    cases hs : select mapping r table with
    | none => rfl
    | some s =>
      rw [hs] at hbest
      have hvars := hbest.pathVars
      rw [h _ hbest.mem] at hvars
      cases hvars

/-- **The selected entry** is the first of the best ones. -/
theorem select_eq_some_iff : select mapping r table = some s ↔ IsBest mapping r table s := by
  have hbest := isBest_select mapping r table
  constructor
  · intro h
    rw [h] at hbest
    exact hbest
  · intro h
    cases hs : select mapping r table with
    | none =>
      have hvars := h.pathVars
      rw [select_eq_none_iff.mp hs _ h.mem] at hvars
      cases hvars
    | some t =>
      rw [hs] at hbest
      rw [hbest.unique h]

theorem mem_of_select (h : select mapping r table = some s) : s.entry ∈ table :=
  (select_eq_some_iff.mp h).mem

/-! ### The order of entering -/

/-- The entry that is selected, and the path variables that it is given. -/
def winner (mapping : ρ → Mapping) (r : Request) (table : List ρ) : Option (ρ × Variables) :=
  (select mapping r table).map fun s => (s.entry, s.pathVars)

/-- The keys of the entries that are for the request, in the order of the table. -/
def keysFor (mapping : ρ → Mapping) (r : Request) (table : List ρ) : List (Nat × Nat × Nat × Nat) :=
  (table.filter fun e => ((mapping e).capture r).isSome).map fun e => (mapping e).key

theorem eq_of_nodup_keysFor {a b : ρ} (h : (keysFor mapping r table).Nodup) (ha : a ∈ table)
    (hb : b ∈ table) (hacap : ((mapping a).capture r).isSome)
    (hbcap : ((mapping b).capture r).isSome) (hkey : (mapping a).key = (mapping b).key) :
    a = b :=
  List.inj_on_of_nodup_map h (List.mem_filter.mpr ⟨ha, hacap⟩) (List.mem_filter.mpr ⟨hb, hbcap⟩)
    hkey

theorem winner_perm {table' : List ρ} (hperm : table.Perm table')
    (h : (keysFor mapping r table).Nodup) : winner mapping r table' = winner mapping r table := by
  unfold winner
  cases hs : select mapping r table with
  | none =>
    have hnone : select mapping r table' = none :=
      select_eq_none_iff.mpr fun x hx => select_eq_none_iff.mp hs x (hperm.mem_iff.mpr hx)
    rw [hnone]
  | some s =>
    have hbest := select_eq_some_iff.mp hs
    have hcap : ((mapping s.entry).capture r).isSome := by rw [hbest.pathVars]; rfl
    cases ht : select mapping r table' with
    | none =>
      have hnone := select_eq_none_iff.mp ht s.entry (hperm.mem_iff.mp hbest.mem)
      rw [hnone] at hcap
      cases hcap
    | some t =>
      have hbest' := select_eq_some_iff.mp ht
      have hcap' : ((mapping t.entry).capture r).isSome := by rw [hbest'.pathVars]; rfl
      -- each is among the entries that the other was selected from
      obtain ⟨i, hi⟩ := List.getElem?_of_mem (hperm.mem_iff.mpr hbest'.mem)
      obtain ⟨j, hj⟩ := List.getElem?_of_mem (hperm.mem_iff.mp hbest.mem)
      have hkey : (mapping s.entry).key = (mapping t.entry).key := by
        rcases hbest.best i t.entry hi hcap' with hbefore | ⟨heq, -⟩
        · rcases hbest'.best j s.entry hj hcap with hbefore' | ⟨heq, -⟩
          · exact absurd hbefore' hbefore.asymm
          · exact heq.symm
        · exact heq
      have hentry : s.entry = t.entry :=
        eq_of_nodup_keysFor h hbest.mem (hperm.mem_iff.mpr hbest'.mem) hcap hcap' hkey
      have hvars := hbest'.pathVars
      rw [← hentry, hbest.pathVars] at hvars
      rw [Option.map_some, Option.map_some, hentry, Option.some.inj hvars]

/-! ### Stability -/

/-- An entry is for the request, and strictly better than what was selected before it, if anything
was. -/
def Improves (mapping : ρ → Mapping) (r : Request) (table : List ρ) (e : ρ) : Prop :=
  ((mapping e).capture r).isSome ∧
    ∀ s, select mapping r table = some s → (mapping e).Precedes (mapping s.entry)

theorem select_concat_of_improves (h : Improves mapping r table e) :
    ∃ v, (mapping e).capture r = some v ∧
      select mapping r (table ++ [e]) = some ⟨e, table.length, v⟩ := by
  obtain ⟨hsome, hbetter⟩ := h
  obtain ⟨v, hv⟩ := Option.isSome_iff_exists.mp hsome
  refine ⟨v, hv, ?_⟩
  rw [select_concat_of_some hv]
  cases hs : select mapping r table with
  | none => rfl
  | some s => exact if_pos (Mapping.rankBefore_iff.mpr (hbetter s hs))

theorem select_concat_of_not_improves (h : ¬ Improves mapping r table e) :
    select mapping r (table ++ [e]) = select mapping r table := by
  cases he : (mapping e).capture r with
  | none => exact select_concat_of_none he
  | some v =>
    have hworse : ∃ s, select mapping r table = some s ∧
        ¬ (mapping e).Precedes (mapping s.entry) := by
      by_contra hno
      refine h ⟨by rw [he]; rfl, fun s hs => ?_⟩
      by_contra hbetter
      exact hno ⟨s, hs, hbetter⟩
    obtain ⟨s, hs, hbetter⟩ := hworse
    rw [select_concat_of_some he, hs]
    exact if_neg fun hif => hbetter (Mapping.rankBefore_iff.mp hif)

/-- **The selection is stable under what is entered.** Whatever is in a table, in the order of
entering, and whatever the request:

* nothing is selected if and only if no entry is for the request;
* what is selected is the earliest entered of the best entries;
* one more entry changes the selection only if it improves it, and then it is selected, with the
  path variables that its own template captures;
* if the entries that are for the request have different keys, the same entry is selected, with the
  same path variables, in whatever order the entries are entered. -/
theorem selection_is_stable (mapping : ρ → Mapping) (r : Request) (table : List ρ) :
    (select mapping r table = none ↔ ∀ e ∈ table, (mapping e).capture r = none) ∧
    (∀ s, select mapping r table = some s ↔ IsBest mapping r table s) ∧
    (∀ e, Improves mapping r table e → ∃ v, (mapping e).capture r = some v ∧
      select mapping r (table ++ [e]) = some ⟨e, table.length, v⟩) ∧
    (∀ e, ¬ Improves mapping r table e →
      select mapping r (table ++ [e]) = select mapping r table) ∧
    ∀ table' : List ρ, table.Perm table' → (keysFor mapping r table).Nodup →
      winner mapping r table' = winner mapping r table :=
  ⟨select_eq_none_iff, fun _ => select_eq_some_iff, fun _ => select_concat_of_improves,
    fun _ => select_concat_of_not_improves, fun _ => winner_perm⟩

/-- Mappings for all notes and for one, the last ones also for what is read and written. -/
def noteMappings : List Mapping :=
  [.of "/notes/*", .of "/notes/:id", (Mapping.of "/notes/:id").reading .json,
    ((Mapping.of "/notes/:id").reading .json).writing .json]

/-- One note is sent in JSON, and wanted back so. -/
def notePut : Request :=
  ⟨.put, "/notes/7", none, 1,
    ⟨[("Content-Type", "application/json"), ("Accept", "application/json")]⟩, []⟩

/-- Of four mappings for a note, the one that says most about it is found, whether it is entered
last or first. -/
theorem note_is_found_by_media_types : (keysFor id notePut noteMappings).Nodup ∧
    keysFor id notePut noteMappings = [(2, 1, 0, 0), (1, 1, 1, 0), (1, 1, 1, 1), (1, 1, 1, 2)] ∧
    winner id notePut noteMappings.reverse =
      some (((Mapping.of "/notes/:id").reading .json).writing .json, ⟨[("id", "7")]⟩) := by
  obtain ⟨-, -, -, -, hperm⟩ := selection_is_stable id notePut noteMappings
  have hkeys : keysFor id notePut noteMappings =
      [(2, 1, 0, 0), (1, 1, 1, 0), (1, 1, 1, 1), (1, 1, 1, 2)] := by
    decide +kernel
  have hnodup : (keysFor id notePut noteMappings).Nodup := by
    rw [hkeys]
    decide
  refine ⟨hnodup, hkeys, ?_⟩
  rw [hperm _ (List.reverse_perm _).symm hnodup]
  decide +kernel

end HttpDispatch
