import Mathlib.Data.List.Basic
import HttpDispatch.Proofs.Text.Split

/-!
# Comma-separated texts

A text is read as a list by its stretches between commas: they are trimmed, and the blank ones are
left out. How the elements were grouped does not matter, because a comma that joins two texts only
ends a stretch, and an element that is read as a list is that list's only element.

* `trim_trim`: trimming is done at once;
* `elements_eq`: the elements are the stretches that are not blank, trimmed;
* `elements_intercalate`: texts that are joined with commas have the elements of all of them;
* `elements_of_blank`: a text of blanks and commas has none;
* `elements_of_mem`: an element has itself as its only element.
-/

namespace HttpDispatch.Text

variable {s : String}

/-! ### Trimming -/

/-- **Trimming is done at once.** -/
@[simp] theorem trim_trim (s : String) : trim (trim s) = trim s :=
  trim_eq_self_iff.mpr (endsWithout_trim s)

/-! ### Elements -/

/-- **The elements are the stretches that are not blank**, trimmed. -/
theorem elements_eq (s : String) :
    elements s = ((split ',' s).filter fun e => trim e != "").map trim := by
  rw [elements, List.filter_map]
  rfl

@[simp] theorem elements_append (s t : String) :
    elements (s ++ "," ++ t) = elements s ++ elements t := by
  have hsplit : split ',' (s ++ "," ++ t) = split ',' s ++ split ',' t := by
    have hlist : (s ++ "," ++ t).toList = s.toList ++ ',' :: t.toList := by simp
    rw [split, hlist, pieces_append_pieces, List.map_append]
    rfl
  simp [elements, hsplit]

/-- **Texts that are joined with commas** have the elements of all of them. -/
@[simp] theorem elements_intercalate (values : List String) :
    elements (",".intercalate values) = values.flatMap elements := by
  induction values with
  | nil => decide
  | cons v values ih =>
    cases values with
    | nil => simp
    | cons u values =>
      rw [String.intercalate_cons_cons, elements_append, ih, List.flatMap_cons (x := v)]

/-- **A text of blanks and commas** has no elements. -/
theorem elements_of_blank {s : String}
    (h : ∀ c ∈ s.toList, isBlank c = true ∨ c = ',') : elements s = [] := by
  have htrim : ∀ text ∈ (split ',' s).map trim, text = "" := by
    intro text htext
    simp only [split, List.map_map, List.mem_map] at htext
    obtain ⟨q, hq, rfl⟩ := htext
    have hblank : ∀ c ∈ q, isBlank c = true := by
      intro c hc
      obtain ⟨hmem, hne⟩ := mem_of_mem_pieces hq hc
      exact (h c hmem).resolve_right hne
    exact trim_eq_empty (by rwa [String.toList_ofList])
  refine List.filter_eq_nil_iff.mpr fun text htext => ?_
  simp [htrim text htext]

/-- **An element has itself as its only element.** -/
theorem elements_of_mem {e : String} (h : e ∈ elements s) : elements e = [e] := by
  rw [elements_eq, List.mem_map] at h
  obtain ⟨stretch, hstretch, rfl⟩ := h
  obtain ⟨hmem, hkept⟩ := List.mem_filter.mp hstretch
  obtain ⟨q, hq, rfl⟩ := List.mem_map.mp hmem
  have hcomma : ',' ∉ (trim (String.ofList q)).toList := by
    intro hc
    rw [trim, String.toList_ofList, String.toList_ofList] at hc
    exact (mem_of_mem_pieces hq (mem_of_mem_stripEnds hc)).2 rfl
  have hsplit : split ',' (trim (String.ofList q)) = [trim (String.ofList q)] := by
    rw [split, pieces_of_not_mem hcomma, List.map_singleton, String.ofList_toList]
  simpa [elements, hsplit] using hkept

/-- **Reading lists twice** is reading them once. -/
@[simp] theorem flatMap_elements (values : List String) :
    (values.flatMap elements).flatMap elements = values.flatMap elements := by
  calc (values.flatMap elements).flatMap elements
      = (values.flatMap elements).flatMap fun e => [e] := by
        refine List.flatMap_congr fun e he => ?_
        obtain ⟨v, -, he⟩ := List.mem_flatMap.mp he
        exact elements_of_mem he
    _ = values.flatMap elements := List.flatMap_singleton' _

end HttpDispatch.Text
