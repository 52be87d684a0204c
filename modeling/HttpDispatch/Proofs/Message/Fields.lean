import Mathlib.Logic.Function.Basic
import HttpDispatch.Message.Fields

/-!
# Header fields as a multimap

Header fields are kept in one list. For everyone who asks by name they are a multimap with names in
lower case as its keys; for everyone who reads the list they are the fields that calls have created
and no later call has cleared, in the order of these calls. Calls on a name leave all other fields
alone.

* `getAll_add`, `getAll_erase`, `getAll_set`: the values of a name after each kind of change;
* `Call`, `after`: calls that change fields, and what they make of them;
* `keptAfter`: the multimap that takes the same calls, and `getAll_after`: it has the same values;
* `surviving`: the fields that are left of a list of calls, and `toList_after`: they are the list;
* `erase_after`: calls on a name, seen from the fields of all others;
* `refines_multimap`: all of this for fields that calls have made.
-/

namespace HttpDispatch

namespace Fields

variable {h k : Fields}

section Changes

variable {name n v : String}

/-! ### Single changes -/

theorem contains_iff : h.contains name ↔ ∃ f ∈ h.toList, Text.lower f.1 = Text.lower name := by
  simp [contains, named, Text.sameName]

theorem mem_set {f : String × String} (hf : f ∈ (h.set n v).toList) : f ∈ h.toList ∨ f = (n, v) := by
  simp only [set, add, erase, List.mem_append, List.mem_filter, List.mem_singleton] at hf
  rcases hf with ⟨hf, -⟩ | rfl
  · exact .inl hf
  · exact .inr rfl

@[simp] theorem contains_add :
    (h.add n v).contains name = (h.contains name || Text.sameName n name) := by
  simp [contains, add, named]

@[simp] theorem contains_set :
    (h.set n v).contains name = (h.contains name || Text.sameName n name) := by
  rw [set, contains_add, Bool.eq_iff_iff, Bool.or_eq_true, Bool.or_eq_true, contains_iff,
    contains_iff]
  constructor
  · rintro (⟨f, hf, hname⟩ | hn)
    · exact .inl ⟨f, (List.mem_filter.mp hf).1, hname⟩
    · exact .inr hn
  · rintro (⟨f, hf, hname⟩ | hn)
    · by_cases hn : Text.sameName n name
      · exact .inr hn
      · refine .inl ⟨f, List.mem_filter.mpr ⟨hf, ?_⟩, hname⟩
        simp only [Text.sameName, beq_iff_eq] at hn
        simp only [named, Text.sameName, hname, Bool.not_eq_true', beq_eq_false_iff_ne, ne_eq]
        exact fun heq => hn heq.symm
    · exact .inr hn

@[simp] theorem getAll_add : (h.add n v).getAll name =
    h.getAll name ++ if Text.sameName n name then [v] else [] := by
  by_cases hn : Text.sameName n name <;> simp [getAll, add, named, hn]

theorem getAll_add_of_ne (hn : Text.sameName n name = false) :
    (h.add n v).getAll name = h.getAll name := by
  simp [hn]

theorem named_congr (hn : Text.sameName n name) : named n = named name := by
  have hlower : Text.lower n = Text.lower name := eq_of_beq hn
  funext f
  rw [named, named, Text.sameName, Text.sameName, hlower]

theorem named_eq_false (hn : Text.sameName n name = false) {f : String × String}
    (hf : named name f) : named n f = false := by
  rw [named, Text.sameName, beq_iff_eq] at hf
  rw [named, Text.sameName, hf]
  exact beq_false_of_ne (ne_of_beq_false hn).symm

/-- **The values of a name when another is removed**, or the name itself. -/
@[simp] theorem getAll_erase : (h.erase n).getAll name =
    if Text.sameName n name then [] else h.getAll name := by
  rw [getAll, erase, List.filter_filter]
  split
  · next hn =>
    rw [named_congr hn]
    simp
  · next hn =>
    refine congrArg (List.map Prod.snd) (List.filter_congr fun f _ => ?_)
    by_cases hf : named name f
    · rw [hf, named_eq_false (Bool.eq_false_iff.mpr hn) hf]
      rfl
    · rw [Bool.eq_false_iff.mpr hf]
      rfl

@[simp] theorem getAll_set_of_ne (hn : Text.sameName n name = false) :
    (h.set n v).getAll name = h.getAll name := by
  simp [set, hn]

/-- **What replaces the fields of a name** is the only value of that name. -/
theorem getAll_set_of_same (hn : Text.sameName n name) : (h.set n v).getAll name = [v] := by
  simp [set, hn]

@[simp] theorem getAll_set (h : Fields) (name value : String) :
    (h.set name value).getAll name = [value] :=
  getAll_set_of_same (beq_self_eq_true _)

theorem getAll_eq_nil_iff : h.getAll name = [] ↔ h.contains name = false := by
  simp [getAll, contains, List.filter_eq_nil_iff]

theorem contains_eq : h.contains name = !(h.getAll name).isEmpty := by
  rw [Bool.eq_iff_iff, Bool.not_eq_true', List.isEmpty_eq_false_iff, ne_eq, getAll_eq_nil_iff,
    Bool.not_eq_false]

theorem get?_eq : h.get? name = (h.getAll name).head? := by
  rw [get?, getAll, List.head?_map, List.head?_filter]

/-- **Fields are removed just if there are any.** -/
@[simp] theorem remove_fst : (h.remove name).1 = h.contains name := by
  rw [remove, Bool.eq_iff_iff, bne_iff_ne, size, size, erase, ne_eq, List.length_filter_eq_length_iff,
    contains, List.any_eq_true]
  simp

/-! ### Without a name -/

@[simp] theorem erase_add : (h.add n v).erase name =
    if Text.sameName n name then h.erase name else (h.erase name).add n v := by
  by_cases hn : Text.sameName n name <;> simp [erase, add, named, hn]

theorem erase_comm : (h.erase n).erase name = (h.erase name).erase n := by
  simp only [erase, List.filter_filter, Bool.and_comm]

theorem erase_erase_of_same (hn : Text.sameName n name) : (h.erase n).erase name = h.erase name := by
  simp only [erase, named_congr hn, List.filter_filter, Bool.and_self]

@[simp] theorem erase_set : (h.set n v).erase name =
    if Text.sameName n name then h.erase name else (h.erase name).set n v := by
  rw [set, erase_add]
  split
  · next hn => exact erase_erase_of_same hn
  · rw [erase_comm, set]

end Changes

/-! ### Calls -/

/-- One call that changes fields. -/
inductive Call where
  | insert (name value : String)
  | set (name value : String)
  | remove (name : String)
  deriving DecidableEq, Repr

namespace Call

/-- The name that is called with. -/
def name : Call → String
  | insert name _ => name
  | set name _ => name
  | remove name => name

/-- What a call makes of fields. -/
def apply (h : Fields) : Call → Fields
  | insert name value => h.add name value
  | set name value => h.set name value
  | remove name => (h.remove name).2

/-- What a call makes of a multimap, whose keys are in lower case. -/
def keep (m : String → List String) : Call → String → List String
  | insert name value => Function.update m (Text.lower name) (m (Text.lower name) ++ [value])
  | set name value => Function.update m (Text.lower name) [value]
  | remove name => Function.update m (Text.lower name) []

/-- The field that a call creates, as it is spelt there. -/
def field? : Call → Option (String × String)
  | insert name value => some (name, value)
  | set name value => some (name, value)
  | remove _ => none

/-- The call clears a field that was there before. -/
def clears : Call → String × String → Bool
  | insert _ _ => fun _ => false
  | set name _ => named name
  | remove name => named name

/-- What is entered into a multimap under a name, seen from another. -/
theorem update_lower (m : String → List String) (n name : String) (values : List String) :
    Function.update m (Text.lower n) values (Text.lower name) =
      if Text.sameName n name then values else m (Text.lower name) := by
  by_cases hn : Text.sameName n name
  · rw [if_pos hn, eq_of_beq hn, Function.update_self]
  · rw [if_neg hn, Function.update_of_ne fun heq => hn (beq_iff_eq.mpr heq.symm)]

/-- **A call does to the values of every name** what it does to the multimap. -/
theorem getAll_apply {m : String → List String} (hm : ∀ name, h.getAll name = m (Text.lower name))
    (c : Call) (name : String) : (c.apply h).getAll name = c.keep m (Text.lower name) := by
  cases c with
  | insert n v =>
    rw [apply, keep, getAll_add, update_lower, hm]
    split
    · next hn => rw [eq_of_beq hn]
    · rw [List.append_nil]
  | set n v =>
    rw [apply, keep, update_lower, ← hm]
    split
    · next hn => exact getAll_set_of_same hn
    · next hn => exact getAll_set_of_ne (Bool.eq_false_iff.mpr hn)
  | remove n =>
    rw [keep, update_lower, ← hm]
    exact getAll_erase

/-- **A call clears some fields and appends one**, or none. -/
theorem toList_apply (h : Fields) (c : Call) :
    (c.apply h).toList = (h.toList.filter fun f => !c.clears f) ++ c.field?.toList := by
  cases c with
  | insert n v =>
    have hall : (h.toList.filter fun f => !(insert n v).clears f) = h.toList :=
      List.filter_eq_self.mpr fun _ _ => rfl
    rw [hall]
    rfl
  | set n v => rfl
  | remove n => exact (List.append_nil _).symm

theorem erase_apply (h : Fields) (c : Call) (name : String) : (c.apply h).erase name =
    if Text.sameName c.name name then h.erase name else c.apply (h.erase name) := by
  cases c with
  | insert n v => exact erase_add
  | set n v => exact erase_set
  | remove n =>
    show (h.erase n).erase name = if Text.sameName n name then _ else (h.erase name).erase n
    split
    · next hn => exact erase_erase_of_same hn
    · exact erase_comm

end Call

/-! ### Calls one after the other -/

variable {calls : List Call}

/-- What calls make of fields. -/
def after (h : Fields) (calls : List Call) : Fields := calls.foldl Call.apply h

/-- What the same calls make of a multimap that is empty at first. -/
def keptAfter (calls : List Call) : String → List String := calls.foldl Call.keep fun _ => []

/-- **The fields that survive**: those that calls create, without those that a later call clears. -/
def surviving : List Call → List (String × String)
  | [] => []
  | c :: later =>
    (c.field?.filter fun f => later.all fun d => !d.clears f).toList ++ surviving later

/-- **Fields and multimap agree** after the same calls, if they do before. -/
theorem getAll_foldl {m : String → List String} (hm : ∀ name, h.getAll name = m (Text.lower name))
    (calls : List Call) (name : String) :
    (h.after calls).getAll name = calls.foldl Call.keep m (Text.lower name) := by
  induction calls generalizing h m with
  | nil => exact hm name
  | cons c calls ih => exact ih (c.getAll_apply hm)

theorem getAll_after (calls : List Call) (name : String) :
    (empty.after calls).getAll name = keptAfter calls (Text.lower name) :=
  getAll_foldl (fun _ => rfl) calls name

/-- **What is left of fields after calls**: those that no call clears, and behind them those that
survive the calls. -/
theorem toList_after (h : Fields) (calls : List Call) : (h.after calls).toList =
    (h.toList.filter fun f => calls.all fun c => !c.clears f) ++ surviving calls := by
  induction calls generalizing h with
  | nil =>
    rw [surviving, List.append_nil]
    exact (List.filter_eq_self.mpr fun _ _ => rfl).symm
  | cons c calls ih =>
    have hstep : (h.after (c :: calls)).toList = _ := ih (c.apply h)
    have hkept : (c.field?.toList.filter fun f => calls.all fun d => !d.clears f) =
        (c.field?.filter fun f => calls.all fun d => !d.clears f).toList := by
      cases c.field? with
      | none => rfl
      | some f =>
        rw [Option.toList_some, Option.filter_some, List.filter_cons, List.filter_nil]
        split <;> rfl
    rw [hstep, Call.toList_apply, List.filter_append, List.filter_filter, hkept, surviving,
      List.append_assoc]
    simp only [List.all_cons, Bool.and_comm]

/-- **Calls on a name** make no difference to the fields of other names. -/
theorem erase_after (hk : h.erase name = k.erase name) (calls : List Call) :
    (h.after calls).erase name =
      (k.after (calls.filter fun c => !Text.sameName c.name name)).erase name := by
  induction calls generalizing h k with
  | nil => exact hk
  | cons c calls ih =>
    by_cases hc : Text.sameName c.name name
    · rw [List.filter_cons_of_neg (by simpa using hc)]
      refine ih ?_
      rw [Call.erase_apply, if_pos hc, hk]
    · rw [List.filter_cons_of_pos (by simpa using hc)]
      refine ih ?_
      rw [Call.erase_apply, Call.erase_apply, if_neg hc, if_neg hc, hk]

/-- **Header fields are a multimap that keeps the order of its calls.** After any calls,

* every name, however it is spelt, has the values that the multimap has under the name in lower
  case; the first value, whether there is one, and whether one would be removed, go by them;
* the fields in order are those that the calls created and no later call cleared, spelt as they were
  created, and the number of fields is theirs;
* the fields of other names than a given one, with their order, are those that the same calls
  without the calls on that name leave, whatever fields there were before. -/
theorem refines_multimap (calls : List Call) :
    (∀ name,
      let values := keptAfter calls (Text.lower name)
      (empty.after calls).getAll name = values ∧
      (empty.after calls).get? name = values.head? ∧
      (empty.after calls).contains name = !values.isEmpty ∧
      ((empty.after calls).remove name).1 = !values.isEmpty) ∧
    (empty.after calls).toList = surviving calls ∧
    (empty.after calls).size = (surviving calls).length ∧
    ∀ (start : Fields) (name : String),
      (start.after calls).toList.filter (fun f => !named name f) =
        (start.after (calls.filter fun c => !Text.sameName c.name name)).toList.filter
          fun f => !named name f := by
  have hlist : (empty.after calls).toList = surviving calls := toList_after empty calls
  refine ⟨fun name => ?_, hlist, by rw [size, hlist], fun start name => ?_⟩
  · have hvalues := getAll_after calls name
    refine ⟨hvalues, ?_, ?_, ?_⟩
    · rw [get?_eq, hvalues]
    · rw [contains_eq, hvalues]
    · rw [remove_fst, contains_eq, hvalues]
  · exact congrArg toList (erase_after (h := start) rfl calls)

/-- A name is spelt in three ways, replaced in the middle, and stands behind the other one then. -/
example : (empty.after [.insert "Accept" "a", .insert "X-Trace" "1", .insert "ACCEPT" "b",
    .set "accept" "c", .insert "Accept" "d", .remove "x-tracer"]).toList =
      [("X-Trace", "1"), ("accept", "c"), ("Accept", "d")] := by decide

end Fields

end HttpDispatch
